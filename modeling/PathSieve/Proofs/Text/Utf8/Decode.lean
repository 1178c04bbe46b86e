import PathSieve.Proofs.Text.Utf8

namespace PathSieve.Utf8

lemma scan_encode_append (t : Text) (rest : Bytes) :
    scan (encode t ++ rest) = t.map some ++ scan rest := by
  induction t with
  | nil => rfl
  | cons c t ih =>
    have h : encode (c :: t) ++ rest = String.utf8EncodeChar c ++ (encode t ++ rest) := by
      simp [encode]
    rw [h, scan_encodeChar, ih]
    rfl

lemma encode_of_scan {s : Bytes} {t : Text} (h : scan s = t.map some) : encode t = s := by
  induction hn : s.length using Nat.strongRecOn generalizing s t with
  | ind n ih =>
    cases s with
    | nil =>
      rw [scan_nil] at h
      obtain rfl : t = [] := by simpa using h.symm
      rfl
    | cons b rest =>
      rw [scan_cons] at h
      cases t with
      | nil => cases h
      | cons c t =>
        obtain ⟨hc, hrest⟩ := List.cons.inj h
        have hlen := next_length_le b rest
        have hd := ih (next b rest).2.length (by simp only [List.length_cons] at hn; omega) hrest
          rfl
        rw [encodeChar_of_next (Prod.ext hc rfl)]
        exact congrArg (String.utf8EncodeChar c ++ ·) hd

lemma mapM_id_eq_some {os : List (Option Char)} {t : Text} :
    os.mapM id = some t ↔ os = t.map some := by
  induction os generalizing t with
  | nil => cases t <;> simp
  | cons o os ih =>
    rw [List.mapM_cons]
    cases o with
    | none => cases t <;> simp
    | some c =>
      have h : ((some c : Option Char) >>= fun d => os.mapM id >>= fun u => pure (d :: u)) =
          (os.mapM id).map (c :: ·) := by
        cases os.mapM id <;> rfl
      rw [id, h, Option.map_eq_some_iff]
      constructor
      · rintro ⟨u, hu, rfl⟩
        rw [ih.mp hu, List.map_cons]
      · intro hos
        cases t with
        | nil => cases hos
        | cons d t =>
          cases hos
          exact ⟨t, ih.mpr rfl, rfl⟩

lemma decode?_eq_some {s : Bytes} {t : Text} : decode? s = some t ↔ scan s = t.map some :=
  mapM_id_eq_some

lemma decode?_encode (t : Text) : decode? (encode t) = some t := by
  have h := scan_encode_append t []
  rw [List.append_nil, scan_nil, List.append_nil] at h
  exact decode?_eq_some.mpr h

lemma decodeLossy_encode (t : Text) : decodeLossy (encode t) = t := by
  rw [decodeLossy, decode?_eq_some.mp (decode?_encode t), List.map_map]
  exact List.map_id' t

lemma encode_of_decode? {s : Bytes} {t : Text} (h : decode? s = some t) : encode t = s :=
  encode_of_scan (decode?_eq_some.mp h)

lemma encode_injective : Function.Injective encode := by
  intro t u h
  have ht := decode?_encode t
  rw [h, decode?_encode] at ht
  exact (Option.some.inj ht).symm

lemma isEmpty_encode (t : Text) : (encode t).isEmpty = t.isEmpty := by
  rw [Bool.eq_iff_iff, List.isEmpty_iff, List.isEmpty_iff]
  exact ⟨fun h => encode_injective h, fun h => h ▸ rfl⟩

lemma exists_mem_encodeChar (c : Char) : ∃ b, b ∈ String.utf8EncodeChar c := by
  refine List.exists_mem_of_ne_nil _ fun h => ?_
  have hnil : encode [c] = [] := by simp [encode, h]
  exact List.cons_ne_nil c [] (encode_injective hnil)

lemma eq_of_mem_encodeChar {b : UInt8} (hb : b.toNat < 128) {c : Char}
    (h : b ∈ String.utf8EncodeChar c) : c = Char.ofNat b.toNat := by
  have hc : IsScalar c.toNat := isScalar_toNat c
  generalize hv : c.toNat = v at hc
  obtain rfl : c = Char.ofNat v := by rw [← hv, Char.ofNat_toNat]
  have hmax : v < 1114112 := by unfold IsScalar at hc; omega
  -- beyond ASCII every byte of an encoding is at least 128
  have hne {n : ℕ} (hn : n < 256) (hn' : 128 ≤ n) : b ≠ UInt8.ofNat n := by
    rintro rfl
    rw [toNat_byte hn] at hb
    omega
  rw [encodeChar_ofNat hc] at h
  split_ifs at h with h1 h2 h3
  · rw [List.mem_singleton.mp h, toNat_byte (by omega)]
  · simp only [List.mem_cons, List.not_mem_nil, or_false] at h
    rcases h with h | h <;> exact absurd h (hne (by omega) (by omega))
  · simp only [List.mem_cons, List.not_mem_nil, or_false] at h
    rcases h with h | h | h <;> exact absurd h (hne (by omega) (by omega))
  · simp only [List.mem_cons, List.not_mem_nil, or_false] at h
    rcases h with h | h | h | h <;> exact absurd h (hne (by omega) (by omega))

lemma encodeChar_ascii {v : ℕ} (h : v < 128) :
    String.utf8EncodeChar (Char.ofNat v) = [UInt8.ofNat v] := by
  rw [encodeChar_ofNat (by unfold IsScalar; omega), if_pos (by omega)]

lemma mem_encode_ascii {v : ℕ} (h : v < 128) {t : Text} :
    UInt8.ofNat v ∈ encode t ↔ Char.ofNat v ∈ t := by
  rw [encode, List.mem_flatMap]
  constructor
  · rintro ⟨c, hc, hb⟩
    have hv := toNat_byte (n := v) (by omega)
    rw [← hv, ← eq_of_mem_encodeChar (by omega) hb]
    exact hc
  · intro hc
    refine ⟨_, hc, ?_⟩
    rw [encodeChar_ascii h]
    exact List.mem_cons_self

end PathSieve.Utf8
