import Mathlib.Tactic.Common
import PathSieve.Text.Utf8

namespace PathSieve.Utf8

def IsScalar (v : ℕ) : Prop := v < 0xD800 ∨ 0xDFFF < v ∧ v < 0x110000

lemma isScalar_toNat (c : Char) : IsScalar c.toNat := c.valid

lemma toNat_ofNat {v : ℕ} (h : IsScalar v) : (Char.ofNat v).toNat = v := by
  have hv : v.isValidChar := h
  rw [Char.ofNat, dif_pos hv]
  rfl

lemma toNat_byte {n : ℕ} (h : n < 256) : (UInt8.ofNat n).toNat = n := by
  rw [UInt8.toNat_ofNat']
  exact Nat.mod_eq_of_lt h

lemma byte_eq {b : UInt8} {n : ℕ} (h : b.toNat = n) : b = UInt8.ofNat n := by
  rw [← h, UInt8.ofNat_toNat]

lemma shape_iff {lead low high : UInt8} {n : ℕ} :
    shape? lead = some (low, high, n) ↔
      n = 0 ∧ (194 ≤ lead.toNat ∧ lead.toNat ≤ 223 ∧ low.toNat = 128 ∧ high.toNat = 191) ∨
      n = 1 ∧ (224 = lead.toNat ∧ low.toNat = 160 ∧ high.toNat = 191 ∨
        225 ≤ lead.toNat ∧ lead.toNat ≤ 236 ∧ low.toNat = 128 ∧ high.toNat = 191 ∨
        237 = lead.toNat ∧ low.toNat = 128 ∧ high.toNat = 159 ∨
        238 ≤ lead.toNat ∧ lead.toNat ≤ 239 ∧ low.toNat = 128 ∧ high.toNat = 191) ∨
      n = 2 ∧ (240 = lead.toNat ∧ low.toNat = 144 ∧ high.toNat = 191 ∨
        241 ≤ lead.toNat ∧ lead.toNat ≤ 243 ∧ low.toNat = 128 ∧ high.toNat = 191 ∨
        244 = lead.toNat ∧ low.toNat = 128 ∧ high.toNat = 143) := by
  unfold shape?
  simp only [UInt8.le_iff_toNat_le, UInt8.lt_iff_toNat_lt, ← UInt8.toNat_inj]
  simp only [UInt8.reduceToNat]
  split_ifs
  all_goals try simp only [Option.some.injEq, Prod.mk.injEq, ← UInt8.toNat_inj,
    UInt8.reduceToNat, false_iff]
  all_goals omega

lemma isTail_iff {b : UInt8} : isTail b ↔ 128 ≤ b.toNat ∧ b.toNat ≤ 191 := by
  simp [isTail, UInt8.le_iff_toNat_le]

lemma finish_cons {n acc : ℕ} {b : UInt8} (h : isTail b) (rest : Bytes) :
    finish (n + 1) acc (b :: rest) = finish n (acc * 64 + b.toNat % 64) rest := by
  rw [finish, if_pos h]

lemma finish_some {n acc : ℕ} {rest r : Bytes} {c : Char}
    (h : finish (n + 1) acc rest = (some c, r)) :
    ∃ b s, rest = b :: s ∧ isTail b ∧ finish n (acc * 64 + b.toNat % 64) s = (some c, r) := by
  cases rest with
  | nil => simp [finish] at h
  | cons b s =>
    rw [finish] at h
    split_ifs at h with hb
    · exact ⟨b, s, rfl, hb, h⟩
    · simp at h

lemma next_ascii {b : UInt8} (h : b.toNat < 128) (rest : Bytes) :
    next b rest = (some (Char.ofNat b.toNat), rest) := by
  rw [next, if_pos (UInt8.lt_iff_toNat_lt.mpr h)]

lemma next_long {lead b low high : UInt8} {n : ℕ} (hs : shape? lead = some (low, high, n))
    (hl : low.toNat ≤ b.toNat) (hh : b.toNat ≤ high.toNat) (rest : Bytes) :
    next lead (b :: rest) = finish n (leadBits n lead * 64 + b.toNat % 64) rest := by
  have hlead : ¬ lead < 0x80 := by
    have := shape_iff.mp hs
    simp only [UInt8.lt_iff_toNat_lt, UInt8.reduceToNat]
    omega
  have hb : (low ≤ b && b ≤ high) = true := by
    simp [UInt8.le_iff_toNat_le, hl, hh]
  rw [next, if_neg hlead, hs]
  dsimp only
  rw [second, if_pos hb]

lemma next_some {lead : UInt8} {rest r : Bytes} {c : Char} (h : next lead rest = (some c, r)) :
    (lead.toNat < 128 ∧ c = Char.ofNat lead.toNat ∧ r = rest) ∨
      ∃ low high n b s, shape? lead = some (low, high, n) ∧ rest = b :: s ∧
        low.toNat ≤ b.toNat ∧ b.toNat ≤ high.toNat ∧
        finish n (leadBits n lead * 64 + b.toNat % 64) s = (some c, r) := by
  rw [next] at h
  split_ifs at h with hl
  · cases h
    exact .inl ⟨UInt8.lt_iff_toNat_lt.mp hl, rfl, rfl⟩
  · right
    cases hs : shape? lead with
    | none => simp [hs] at h
    | some shape =>
      obtain ⟨low, high, n⟩ := shape
      rw [hs] at h
      cases rest with
      | nil => simp [second] at h
      | cons b s =>
        dsimp only at h
        rw [second] at h
        split_ifs at h with hb
        · simp only [Bool.and_eq_true, decide_eq_true_eq, UInt8.le_iff_toNat_le] at hb
          exact ⟨low, high, n, b, s, rfl, rfl, hb.1, hb.2, h⟩
        · simp at h

lemma encodeChar_ofNat {v : ℕ} (h : IsScalar v) :
    String.utf8EncodeChar (Char.ofNat v) =
      if v ≤ 0x7F then [UInt8.ofNat v]
      else if v ≤ 0x7FF then [UInt8.ofNat (v / 64 % 32 + 0xC0), UInt8.ofNat (v % 64 + 0x80)]
      else if v ≤ 0xFFFF then
        [UInt8.ofNat (v / 4096 % 16 + 0xE0), UInt8.ofNat (v / 64 % 64 + 0x80),
          UInt8.ofNat (v % 64 + 0x80)]
      else
        [UInt8.ofNat (v / 262144 % 8 + 0xF0), UInt8.ofNat (v / 4096 % 64 + 0x80),
          UInt8.ofNat (v / 64 % 64 + 0x80), UInt8.ofNat (v % 64 + 0x80)] := by
  have hv : (Char.ofNat v).val.toNat = v := toNat_ofNat h
  rw [String.utf8EncodeChar]
  simp only [hv]

lemma leadBits_zero (lead : UInt8) : leadBits 0 lead = lead.toNat % 32 := rfl

lemma leadBits_one (lead : UInt8) : leadBits 1 lead = lead.toNat % 16 := rfl

lemma leadBits_two (lead : UInt8) : leadBits 2 lead = lead.toNat % 8 := rfl

lemma encodeChar_of_next {lead : UInt8} {rest r : Bytes} {c : Char}
    (h : next lead rest = (some c, r)) : lead :: rest = String.utf8EncodeChar c ++ r := by
  rcases next_some h with ⟨hl, rfl, rfl⟩ | ⟨low, high, n, b, s, hs, rfl, hlow, hhigh, hf⟩
  · rw [encodeChar_ofNat (by unfold IsScalar; omega), if_pos (by omega), ← byte_eq rfl]
    rfl
  have hshape := shape_iff.mp hs
  have hn : n = 0 ∨ n = 1 ∨ n = 2 := by omega
  rcases hn with rfl | rfl | rfl
  · rw [finish, leadBits_zero] at hf
    cases hf
    rw [encodeChar_ofNat (by unfold IsScalar; omega), if_neg (by omega), if_pos (by omega),
      ← byte_eq (b := lead) (by omega), ← byte_eq (b := b) (by omega)]
    rfl
  · obtain ⟨b1, s1, rfl, ht, hf⟩ := finish_some hf
    rw [finish, leadBits_one] at hf
    rw [isTail_iff] at ht
    cases hf
    rw [encodeChar_ofNat (by unfold IsScalar; omega), if_neg (by omega), if_neg (by omega),
      if_pos (by omega), ← byte_eq (b := lead) (by omega), ← byte_eq (b := b) (by omega),
      ← byte_eq (b := b1) (by omega)]
    rfl
  · obtain ⟨b1, s1, rfl, ht, hf⟩ := finish_some hf
    obtain ⟨b2, s2, rfl, hu, hf⟩ := finish_some hf
    rw [finish, leadBits_two] at hf
    rw [isTail_iff] at ht hu
    cases hf
    rw [encodeChar_ofNat (by unfold IsScalar; omega), if_neg (by omega), if_neg (by omega),
      if_neg (by omega), ← byte_eq (b := lead) (by omega), ← byte_eq (b := b) (by omega),
      ← byte_eq (b := b1) (by omega), ← byte_eq (b := b2) (by omega)]
    rfl

lemma exists_shape (lead : UInt8) (hl : 194 ≤ lead.toNat) (hh : lead.toNat ≤ 244) :
    ∃ low high n, shape? lead = some (low, high, n) := by
  unfold shape?
  simp only [UInt8.le_iff_toNat_le, UInt8.lt_iff_toNat_lt, ← UInt8.toNat_inj, UInt8.reduceToNat]
  split_ifs
  all_goals first | exact ⟨_, _, _, rfl⟩ | omega

lemma scan_encodeChar (c : Char) (rest : Bytes) :
    scan (String.utf8EncodeChar c ++ rest) = some c :: scan rest := by
  have hc : IsScalar c.toNat := isScalar_toNat c
  generalize hv : c.toNat = v at hc
  obtain rfl : c = Char.ofNat v := by rw [← hv, Char.ofNat_toNat]
  have hmax : v < 1114112 := by unfold IsScalar at hc; omega
  rw [encodeChar_ofNat hc]
  split_ifs with h1 h2 h3
  · have hb := toNat_byte (n := v) (by omega)
    rw [List.singleton_append, scan_cons, next_ascii (by omega), hb]
  · have hlead := toNat_byte (n := v / 64 % 32 + 0xC0) (by omega)
    have hb := toNat_byte (n := v % 64 + 0x80) (by omega)
    obtain ⟨low, high, n, hs⟩ := exists_shape (UInt8.ofNat (v / 64 % 32 + 0xC0))
      (by omega) (by omega)
    have hshape := shape_iff.mp hs
    obtain rfl : n = 0 := by omega
    have hval : (v / 64 % 32 + 0xC0) % 32 * 64 + (v % 64 + 0x80) % 64 = v := by omega
    rw [List.cons_append, List.singleton_append, scan_cons,
      next_long hs (by omega) (by omega), finish, leadBits_zero, hb, hlead, hval]
  · have hlead := toNat_byte (n := v / 4096 % 16 + 0xE0) (by omega)
    have hb := toNat_byte (n := v / 64 % 64 + 0x80) (by omega)
    have hb1 := toNat_byte (n := v % 64 + 0x80) (by omega)
    obtain ⟨low, high, n, hs⟩ := exists_shape (UInt8.ofNat (v / 4096 % 16 + 0xE0))
      (by omega) (by omega)
    have hshape := shape_iff.mp hs
    unfold IsScalar at hc
    obtain rfl : n = 1 := by omega
    have hval : ((v / 4096 % 16 + 0xE0) % 16 * 64 + (v / 64 % 64 + 0x80) % 64) * 64 +
        (v % 64 + 0x80) % 64 = v := by omega
    simp only [List.cons_append, List.nil_append]
    rw [scan_cons, next_long hs (by omega) (by omega),
      finish_cons (isTail_iff.mpr (by omega)), finish, leadBits_one, hb, hb1, hlead, hval]
  · have hlead := toNat_byte (n := v / 262144 % 8 + 0xF0) (by omega)
    have hb := toNat_byte (n := v / 4096 % 64 + 0x80) (by omega)
    have hb1 := toNat_byte (n := v / 64 % 64 + 0x80) (by omega)
    have hb2 := toNat_byte (n := v % 64 + 0x80) (by omega)
    obtain ⟨low, high, n, hs⟩ := exists_shape (UInt8.ofNat (v / 262144 % 8 + 0xF0))
      (by omega) (by omega)
    have hshape := shape_iff.mp hs
    obtain rfl : n = 2 := by omega
    have hval : (((v / 262144 % 8 + 0xF0) % 8 * 64 + (v / 4096 % 64 + 0x80) % 64) * 64 +
        (v / 64 % 64 + 0x80) % 64) * 64 + (v % 64 + 0x80) % 64 = v := by omega
    simp only [List.cons_append, List.nil_append]
    rw [scan_cons, next_long hs (by omega) (by omega), finish_cons (isTail_iff.mpr (by omega)),
      finish_cons (isTail_iff.mpr (by omega)), finish, leadBits_two, hb, hb1, hb2, hlead,
      hval]

end PathSieve.Utf8
