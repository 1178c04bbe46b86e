import PathSieve.Buffer
import PathSieve.Proofs.Text.Utf8.Lines

namespace PathSieve

lemma Utf8.size_append (s t : Text) : size (s ++ t) = size s + size t := by
  rw [size, size, size, encode_append, List.length_append]

namespace Buffer

def HasRoom (buffer : Buffer) (n : ℕ) : Prop := ∀ room ∈ buffer.room, n ≤ room

instance (buffer : Buffer) (n : ℕ) : Decidable (buffer.HasRoom n) :=
  inferInstanceAs (Decidable (∀ room ∈ buffer.room, n ≤ room))

def append (buffer : Buffer) (ss : List Text) : Buffer :=
  ⟨ss.reverse ++ buffer.written, buffer.room.map (· - Utf8.size ss.flatten), buffer.cut⟩

variable (buffer : Buffer)

lemma append_nil : buffer.append [] = buffer := by
  obtain ⟨written, room, cut⟩ := buffer
  cases room <;> rfl

lemma append_append (ss ts : List Text) :
    (buffer.append ss).append ts = buffer.append (ss ++ ts) := by
  have hroom : ∀ room : ℕ, room - Utf8.size ss.flatten - Utf8.size ts.flatten =
      room - Utf8.size (ss ++ ts).flatten := by
    intro room
    rw [List.flatten_append, Utf8.size_append, Nat.sub_sub]
  rw [append, append, append, Option.map_map, List.reverse_append, List.append_assoc]
  exact congrArg (Buffer.mk _ · _) (congrArg (buffer.room.map ·) (funext hroom))

lemma text_append (ss : List Text) : (buffer.append ss).text = buffer.text ++ ss.flatten := by
  rw [text, text, append, List.reverse_append, List.reverse_reverse, List.flatten_append]

lemma hasRoom_append_iff (ss : List Text) (n : ℕ) :
    buffer.HasRoom (Utf8.size ss.flatten) ∧ (buffer.append ss).HasRoom n ↔
      buffer.HasRoom (Utf8.size ss.flatten + n) := by
  obtain ⟨written, room, cut⟩ := buffer
  cases room with
  | none => simp [HasRoom, append]
  | some room =>
    simp only [HasRoom, append, Option.map_some, Option.mem_def, Option.some.injEq, forall_eq']
    omega

lemma hasRoom_cons_iff (s : Text) (ss : List Text) :
    buffer.HasRoom (Utf8.size (s :: ss).flatten) ↔
      buffer.HasRoom (Utf8.size s) ∧ (buffer.append [s]).HasRoom (Utf8.size ss.flatten) := by
  have h := buffer.hasRoom_append_iff [s] (Utf8.size ss.flatten)
  rw [List.flatten_singleton] at h
  rw [List.flatten_cons, Utf8.size_append, h]

lemma ite_hasRoom_add {α : Type} (ss : List Text) (n : ℕ) (x y : α) :
    (if buffer.HasRoom (Utf8.size ss.flatten + n) then x else y) =
      if buffer.HasRoom (Utf8.size ss.flatten) then
        if (buffer.append ss).HasRoom n then x else y
      else y := by
  rw [← ite_and]
  exact if_congr (buffer.hasRoom_append_iff ss n).symm rfl rfl

def fitting (bs : Bytes) : Bytes := buffer.room.elim bs bs.take

variable {buffer}

lemma write_of_hasRoom {s : Text} (h : buffer.HasRoom (Utf8.size s)) :
    buffer.write s = .ok (buffer.append [s]) := by
  obtain ⟨written, room, cut⟩ := buffer
  cases room with
  | none => simp [write, append]
  | some room =>
    have hfits : Utf8.size s ≤ room := h room rfl
    simp [write, append, hfits]

lemma write_of_not_hasRoom {s : Text} (h : ¬ buffer.HasRoom (Utf8.size s)) :
    ∃ full, buffer.write s = .error full ∧
      full.bytes = buffer.bytes ++ buffer.fitting (Utf8.encode s) := by
  obtain ⟨written, room, cut⟩ := buffer
  cases room with
  | none => exact absurd (fun room hroom => nomatch hroom) h
  | some room =>
    have hlong : ¬ Utf8.size s ≤ room := fun hle => h fun _ hroom => Option.some.inj hroom ▸ hle
    refine ⟨_, if_neg hlong, ?_⟩
    simp [bytes, text, fitting]

lemma fitting_append {ss : List Text} (h : buffer.HasRoom (Utf8.size ss.flatten)) (t : Text) :
    buffer.fitting (Utf8.encode (ss.flatten ++ t)) =
      Utf8.encode ss.flatten ++ (buffer.append ss).fitting (Utf8.encode t) := by
  obtain ⟨written, room, cut⟩ := buffer
  rw [Utf8.encode_append]
  cases room with
  | none => rfl
  | some room =>
    have hfits : (Utf8.encode ss.flatten).length ≤ room := h room rfl
    simp [fitting, append, List.take_append, List.take_of_length_le hfits, Utf8.size]

lemma fitting_of_not_hasRoom {s : Text} (h : ¬ buffer.HasRoom (Utf8.size s)) (t : Text) :
    buffer.fitting (Utf8.encode (s ++ t)) = buffer.fitting (Utf8.encode s) := by
  obtain ⟨written, room, cut⟩ := buffer
  rw [Utf8.encode_append]
  cases room with
  | none => exact absurd (fun room hroom => nomatch hroom) h
  | some room =>
    have hlong : room ≤ (Utf8.encode s).length := by
      by_contra hlt
      exact h fun _ hroom => Option.some.inj hroom ▸ (Nat.le_of_lt (Nat.not_le.mp hlt))
    exact List.take_append_of_le_length hlong

lemma bytes_append (h : buffer.cut = []) (ss : List Text) :
    (buffer.append ss).bytes = buffer.bytes ++ Utf8.encode ss.flatten := by
  rw [bytes, bytes, text_append, append, h, Utf8.encode_append, List.append_nil, List.append_nil]

lemma bytes_append_fitting (hcut : buffer.cut = []) {ss : List Text}
    (h : buffer.HasRoom (Utf8.size ss.flatten)) (t : Text) :
    (buffer.append ss).bytes ++ (buffer.append ss).fitting (Utf8.encode t) =
      buffer.bytes ++ buffer.fitting (Utf8.encode (ss.flatten ++ t)) := by
  rw [bytes_append hcut, fitting_append h, List.append_assoc]

lemma foldlM_write {ss : List Text} (h : buffer.HasRoom (Utf8.size ss.flatten)) :
    ss.foldlM write buffer = .ok (buffer.append ss) := by
  induction ss generalizing buffer with
  | nil =>
    rw [append_nil]
    rfl
  | cons s ss ih =>
    obtain ⟨hs, hrest⟩ := (buffer.hasRoom_cons_iff s ss).mp h
    rw [List.foldlM_cons, write_of_hasRoom hs]
    exact (ih hrest).trans (by rw [append_append, List.singleton_append])

lemma foldlM_write_error {ss : List Text} (hcut : buffer.cut = [])
    (h : ¬ buffer.HasRoom (Utf8.size ss.flatten)) :
    ∃ full, ss.foldlM write buffer = .error full ∧
      full.bytes = buffer.bytes ++ buffer.fitting (Utf8.encode ss.flatten) := by
  induction ss generalizing buffer with
  | nil => exact absurd (fun room _ => Nat.zero_le room) h
  | cons s ss ih =>
    rw [List.flatten_cons, List.foldlM_cons]
    by_cases hs : buffer.HasRoom (Utf8.size s)
    · have hcut' : (buffer.append [s]).cut = [] := hcut
      obtain ⟨full, hfull, hbytes⟩ := ih hcut' fun hrest =>
        h ((buffer.hasRoom_cons_iff s ss).mpr ⟨hs, hrest⟩)
      refine ⟨full, (congrArg (· >>= _) (write_of_hasRoom hs)).trans hfull, ?_⟩
      rw [hbytes, bytes_append_fitting hcut (by rwa [List.flatten_singleton]),
        List.flatten_singleton]
    · obtain ⟨full, hfull, hbytes⟩ := write_of_not_hasRoom hs
      refine ⟨full, congrArg (· >>= _) hfull, ?_⟩
      rw [hbytes, fitting_of_not_hasRoom hs]

end Buffer

end PathSieve
