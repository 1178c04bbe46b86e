import PathSieve.Proofs.Text.Utf8.Decode
import PathSieve.Proofs.Text.Line

/-! UTF-8 line by line. An ASCII byte belongs to no longer character, so the text before it and the
text behind it are read apart, and bytes are valid if each of their lines is. -/

namespace PathSieve.Utf8

variable {b : UInt8}

lemma not_isTail_ascii (hb : b.toNat < 128) : isTail b = false := by
  rw [Bool.eq_false_iff]
  intro h
  have := isTail_iff.mp h
  omega

lemma finish_append_ascii (hb : b.toNat < 128) (n acc : ℕ) (s rest : Bytes) :
    finish n acc (s ++ b :: rest) = ((finish n acc s).1, (finish n acc s).2 ++ b :: rest) := by
  fun_induction finish n acc s with
  | case1 => rw [finish]
  | case2 n acc =>
    rw [List.nil_append, finish, if_neg (by simp [not_isTail_ascii hb])]
  | case3 n acc c s hc ih => rw [List.cons_append, finish, if_pos hc, ih]
  | case4 n acc c s hc => rw [List.cons_append, finish, if_neg hc]

lemma next_append_ascii (hb : b.toNat < 128) (lead : UInt8) (s rest : Bytes) :
    next lead (s ++ b :: rest) = ((next lead s).1, (next lead s).2 ++ b :: rest) := by
  rw [next, next]
  split_ifs with hl
  · rfl
  cases hs : shape? lead with
  | none => rfl
  | some shape =>
    obtain ⟨low, high, n⟩ := shape
    have hlow : 128 ≤ low.toNat := by
      have := shape_iff.mp hs
      omega
    cases s with
    | nil =>
      have hout : ¬ (low ≤ b && b ≤ high) = true := by
        simp only [Bool.and_eq_true, decide_eq_true_eq, UInt8.le_iff_toNat_le]
        omega
      exact if_neg hout
    | cons c s =>
      rw [List.cons_append]
      dsimp only
      rw [second, second]
      split_ifs
      · exact finish_append_ascii hb n _ s rest
      · rfl

lemma scan_append_ascii (hb : b.toNat < 128) (s rest : Bytes) :
    scan (s ++ b :: rest) = scan s ++ some (Char.ofNat b.toNat) :: scan rest := by
  induction hn : s.length using Nat.strongRecOn generalizing s with
  | ind n ih =>
    cases s with
    | nil => rw [List.nil_append, scan_cons, next_ascii hb, scan_nil, List.nil_append]
    | cons c s =>
      have hlen := next_length_le c s
      rw [List.length_cons] at hn
      rw [List.cons_append, scan_cons, next_append_ascii hb, scan_cons,
        ih (next c s).2.length (by omega) _ rfl, List.cons_append]

lemma exists_decode? {s : Bytes} : (∃ t, decode? s = some t) ↔ none ∉ scan s := by
  constructor
  · rintro ⟨t, ht⟩
    simp [decode?_eq_some.mp ht]
  · intro h
    have hall : ∀ o ∈ scan s, some (o.getD 'x') = o := by
      intro o ho
      cases o with
      | none => exact absurd ho h
      | some c => rfl
    have hmap : (scan s).map (fun o => some (o.getD 'x')) = scan s :=
      (List.map_congr_left hall).trans (List.map_id' _)
    refine ⟨(scan s).map (·.getD 'x'), decode?_eq_some.mpr ?_⟩
    rw [List.map_map]
    exact hmap.symm

lemma isValid_iff_decode? {s : Bytes} : isValid s ↔ ∃ t, decode? s = some t := by
  rw [exists_decode?, isValid, List.all_eq_true]
  constructor
  · exact fun h hnone => Bool.false_ne_true (h none hnone)
  · exact fun h o ho => Option.isSome_iff_ne_none.mpr fun hnone => h (hnone ▸ ho)

lemma isValid_iff {s : Bytes} : isValid s ↔ ∃ t, encode t = s := by
  rw [isValid_iff_decode?]
  exact exists_congr fun t => ⟨encode_of_decode?, fun h => h ▸ decode?_encode t⟩

lemma exists_decode?_append_ascii (hb : b.toNat < 128) (s rest : Bytes) :
    (∃ t, decode? (s ++ b :: rest) = some t) ↔
      (∃ t, decode? s = some t) ∧ ∃ t, decode? rest = some t := by
  rw [exists_decode?, exists_decode?, exists_decode?, scan_append_ascii hb]
  simp

lemma exists_decode?_split (newline : UInt8) (hb : newline.toNat < 128) (data : Bytes) :
    (∃ t, decode? data = some t) ↔
      ∀ line ∈ Line.split newline data, ∃ t, decode? line = some t := by
  have hcut := Line.cut_split newline data
  generalize Line.split newline data = lines at hcut ⊢
  induction hcut with
  | nil => exact ⟨fun _ _ hline => absurd hline List.not_mem_nil, fun _ => ⟨[], decode?_encode []⟩⟩
  | last => rw [List.forall_mem_singleton]
  | line _ _ ih =>
    rw [exists_decode?_append_ascii hb, List.forall_mem_cons]
    exact and_congr_right' ih

lemma encode_append (s t : Text) : encode (s ++ t) = encode s ++ encode t := List.flatMap_append

lemma encode_join (sep : Text) (ss : List Text) :
    encode (Text.join sep ss) = Text.join (encode sep) (ss.map encode) := by
  induction ss with
  | nil => rfl
  | cons s ss ih =>
    cases ss with
    | nil => rfl
    | cons t ss =>
      have hjoin : Text.join sep (s :: t :: ss) = s ++ sep ++ Text.join sep (t :: ss) := rfl
      rw [hjoin, encode_append, encode_append, ih]
      rfl

lemma encode_unsplit (ls : List Text) :
    encode (Line.unsplit '\n' ls) = Line.unsplit 0x0A (ls.map encode) := by
  have hnewline : encode ['\n'] = [0x0A] := rfl
  induction ls with
  | nil => rfl
  | cons l ls ih =>
    rw [Line.unsplit_cons, List.map_cons, Line.unsplit_cons, ← ih, List.append_cons, encode_append,
      encode_append, hnewline, List.append_assoc]
    rfl

lemma cut_encode {t : Text} {ls : List Text} (h : Line.Cut '\n' t ls) :
    Line.Cut 0x0A (encode t) (ls.map encode) := by
  have hnewline {l : Text} (hl : '\n' ∉ l) : 0x0A ∉ encode l := fun hmem =>
    hl ((mem_encode_ascii (v := 0x0A) (by decide)).mp hmem)
  induction h with
  | nil => exact .nil
  | last hne hl =>
    exact .last (fun hnil => hne (encode_injective hnil)) (hnewline hl)
  | line hl _ ih =>
    rw [encode_append, List.map_cons]
    exact .line (hnewline hl) ih

lemma split_encode (t : Text) : Line.split 0x0A (encode t) = (Line.split '\n' t).map encode :=
  (cut_encode (Line.cut_split '\n' t)).split_eq

lemma split_encode_unsplit {ls : List Text} (h : ∀ l ∈ ls, '\n' ∉ l) :
    Line.split 0x0A (encode (Line.unsplit '\n' ls)) = ls.map encode := by
  rw [split_encode, Line.split_unsplit h]

end PathSieve.Utf8
