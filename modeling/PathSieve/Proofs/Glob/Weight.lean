import Mathlib.Algebra.Order.BigOperators.Group.List
import Mathlib.Algebra.Order.Ring.Nat
import PathSieve.Glob.Weight
import PathSieve.Proofs.Glob.Literal

namespace PathSieve.Glob

open Regex (stateSize)

lemma choiceSize_mono {m n : ℕ} (h : m ≤ n) : choiceSize m ≤ choiceSize n :=
  Nat.add_le_add_left (Nat.mul_le_mul_left _ h) _

lemma setSize_le_of_sublist {ss ts : List (List Token)} (h : ss.Sublist ts) :
    setSize ss ≤ setSize ts := by
  have hchoice : (if ss.length ≤ 1 then 0 else choiceSize ss.length) ≤
      if ts.length ≤ 1 then 0 else choiceSize ts.length := by
    have hlength := h.length_le
    split_ifs
    · exact le_refl 0
    · exact Nat.zero_le _
    · omega
    · exact choiceSize_mono hlength
  have hsum : (ss.map size).sum ≤ (ts.map size).sum :=
    (h.map size).sum_le_sum fun _ _ => Nat.zero_le _
  rw [setSize, setSize, ← List.sum_eq_foldr, ← List.sum_eq_foldr]
  omega

lemma isTooLarge_of_sublist {ss ts : List (List Token)} (h : ss.Sublist ts)
    (hts : isTooLarge ts = false) : isTooLarge ss = false := by
  rw [isTooLarge, decide_eq_false_iff_not, Nat.not_lt] at hts ⊢
  exact (setSize_le_of_sublist h).trans hts

lemma isTooLarge_nil : isTooLarge [] = false := rfl

lemma sum_size_le_setSize (ss : List (List Token)) : (ss.map size).sum ≤ setSize ss :=
  Nat.le_add_left _ _

lemma sequenceSize_append (ts us : List Token) :
    sequenceSize (ts ++ us) = sequenceSize ts + sequenceSize us := by
  induction ts with
  | nil => simp [sequenceSize]
  | cons t ts ih => rw [List.cons_append, sequenceSize, sequenceSize, ih, Nat.add_assoc]

lemma length_le_sequenceSize_literals (w : Text) :
    stateSize * w.length ≤ sequenceSize (literals w) := by
  induction w with
  | nil => exact Nat.zero_le _
  | cons c w ih =>
    have hc : 1 ≤ (String.utf8EncodeChar c).length := by
      rw [String.length_utf8EncodeChar]
      exact c.utf8Size_pos
    rw [literals_cons, sequenceSize, Token.size, List.length_cons, Nat.mul_add, Nat.mul_one,
      Nat.add_comm]
    exact Nat.add_le_add (Nat.le_mul_of_pos_right _ hc) ih

end PathSieve.Glob
