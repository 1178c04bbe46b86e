import Mathlib.Tactic.Common
import PathSieve.Arguments.Number
import PathSieve.Text.Digits

namespace PathSieve.Arguments

lemma decimalDigit?_eq_some {c : Char} {d : ℕ} :
    Text.decimalDigit? c = some d ↔ isDigit c ∧ c.toNat - '0'.toNat = d := by
  have hdigit : Text.decimalDigit? c = if isDigit c then some (c.toNat - '0'.toNat) else none := rfl
  rw [hdigit]
  split_ifs with h <;> simp [h]

lemma le_foldl_digits (ds : List ℕ) (n : ℕ) : n ≤ ds.foldl (fun n d => n * 10 + d) n := by
  induction ds generalizing n with
  | nil => exact Nat.le_refl n
  | cons d ds ih =>
    have hnext := ih (n * 10 + d)
    rw [List.foldl_cons]
    omega

lemma digits_of_mapM {s : Text} {ds : List ℕ} (h : s.mapM Text.decimalDigit? = some ds) {n : ℕ}
    (hn : n < numberLimit) :
    digits n s = if ds.foldl (fun n d => n * 10 + d) n < numberLimit
      then .ok (ds.foldl (fun n d => n * 10 + d) n) else .error .tooLarge := by
  induction s generalizing n ds with
  | nil =>
    cases h
    exact (if_pos hn).symm
  | cons c s ih =>
    rw [List.mapM_cons] at h
    obtain ⟨d, hd, h⟩ := Option.bind_eq_some_iff.mp h
    obtain ⟨ds', hds, h⟩ := Option.bind_eq_some_iff.mp h
    cases h
    obtain ⟨hdigit, rfl⟩ := decimalDigit?_eq_some.mp hd
    rw [digits, hdigit, List.foldl_cons]
    by_cases hlimit : numberLimit ≤ n * 10 + (c.toNat - '0'.toNat)
    · have hle := le_foldl_digits ds' (n * 10 + (c.toNat - '0'.toNat))
      rw [if_neg (by simp), if_pos hlimit, if_neg (by omega)]
    · rw [if_neg (by simp), if_neg hlimit]
      exact ih hds (by omega)

lemma digits_of_decimal {s : Text} {n : ℕ} (h : Text.ofDecimal? s = some n) :
    digits 0 s = if n < numberLimit then .ok n else .error .tooLarge := by
  cases s with
  | nil => cases h
  | cons c s =>
    obtain ⟨ds, hds, rfl⟩ := Option.map_eq_some_iff.mp h
    exact digits_of_mapM hds (by decide)

lemma number_of_decimal {s : Text} {n : ℕ} (h : Text.ofDecimal? s = some n) :
    number s = if n < numberLimit then .ok n else .error .tooLarge := by
  cases s with
  | nil => cases h
  | cons c s =>
    have hplus : c ≠ '+' := by
      rintro rfl
      cases h
    rw [number.eq_4 _ (by simp) (by simp [hplus]) (by simp [hplus])]
    exact digits_of_decimal h

lemma number_of_signed {s : Text} {n : ℕ} (h : Text.ofDecimal? s = some n) :
    number ('+' :: s) = if n < numberLimit then .ok n else .error .tooLarge := by
  have hs : s ≠ [] := by
    rintro rfl
    cases h
  rw [number.eq_3 s hs]
  exact digits_of_decimal h

end PathSieve.Arguments
