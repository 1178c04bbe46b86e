import Mathlib.Computability.Language
import Mathlib.Order.ConditionallyCompleteLattice.Basic
import PathSieve.Positions

/-! Sets of positions as languages. A position of a subject is the prefix in front of it, and each
operation on sets of positions multiplies the language of these prefixes by the words it reads. -/

namespace PathSieve.Positions

variable {α : Type}

def prefixes (subject : List α) : Language α := {x | x <+: subject}

def reached (subject : List α) (v : List Bool) : Language α :=
  {x | x <+: subject ∧ v[x.length]? = some true}

def lettersOf (p : α → Bool) : Language α := {x | ∃ a, p a = true ∧ x = [a]}

lemma mem_reached {subject x : List α} {v : List Bool} :
    x ∈ reached subject v ↔ x <+: subject ∧ v[x.length]? = some true := Iff.rfl

lemma mem_lettersOf {p : α → Bool} {x : List α} :
    x ∈ lettersOf p ↔ ∃ a, p a = true ∧ x = [a] := Iff.rfl

lemma mul_inf_prefixes (subject : List α) (l m : Language α) :
    (l ⊓ prefixes subject) * m ⊓ prefixes subject = l * m ⊓ prefixes subject := by
  ext z
  constructor
  · rintro ⟨hz, hp⟩
    obtain ⟨x, ⟨hx, -⟩, y, hy, rfl⟩ := Language.mem_mul.mp hz
    exact ⟨Language.append_mem_mul hx hy, hp⟩
  · rintro ⟨hz, hp⟩
    obtain ⟨x, hx, y, hy, rfl⟩ := Language.mem_mul.mp hz
    have hxp : x <+: subject := (List.prefix_append x y).trans hp
    exact ⟨Language.append_mem_mul ⟨hx, hxp⟩ hy, hp⟩

lemma reached_inf (subject : List α) (v : List Bool) :
    reached subject v ⊓ prefixes subject = reached subject v := by
  ext x
  exact ⟨fun h => h.1, fun h => ⟨h, h.1⟩⟩

lemma reached_start (subject : List α) : reached subject (start subject) = 1 := by
  ext x
  rw [mem_reached, Language.mem_one]
  cases x with
  | nil => simp [start]
  | cons a x => simp [start, List.getElem?_replicate]

lemma reached_none (subject : List α) (v : List Bool) :
    reached subject (v.map fun _ => false) = 0 := by
  ext x
  simp [mem_reached, List.getElem?_replicate]

lemma reached_union (subject : List α) {v w : List Bool} (h : v.length = w.length) :
    reached subject (union v w) = reached subject v + reached subject w := by
  ext x
  rw [Language.mem_add, mem_reached, mem_reached, mem_reached, union, List.getElem?_zipWith]
  by_cases hx : x.length < v.length
  · rw [List.getElem?_eq_getElem hx, List.getElem?_eq_getElem (h ▸ hx)]
    simp [← and_or_left]
  · rw [List.getElem?_eq_none (by omega), List.getElem?_eq_none (by omega)]
    simp

lemma reached_advance (p : α → Bool) (subject : List α) (v : List Bool) :
    reached subject (advance p subject v) =
      reached subject v * lettersOf p ⊓ prefixes subject := by
  ext z
  constructor
  · rintro ⟨hz, hv⟩
    obtain rfl | ⟨x, a, rfl⟩ := List.eq_nil_or_concat z
    · simp [advance] at hv
    · rw [List.concat_eq_append] at hz hv
      obtain ⟨y, hs⟩ := hz
      have ha : subject[x.length]? = some a := by simp [← hs]
      simp only [advance, List.length_append, List.length_singleton, List.getElem?_cons_succ,
        List.getElem?_zipWith, ha] at hv
      cases hw : v[x.length]? with
      | none => simp [hw] at hv
      | some b =>
        simp only [hw, Option.some.injEq, Bool.and_eq_true] at hv
        have hx : x ∈ reached subject v :=
          ⟨⟨[a] ++ y, by rw [← List.append_assoc, hs]⟩, by rw [hw, hv.1]⟩
        have hl : [a] ∈ lettersOf p := ⟨a, hv.2, rfl⟩
        rw [List.concat_eq_append]
        exact ⟨Language.append_mem_mul hx hl, ⟨y, hs⟩⟩
  · rintro ⟨hz, hp⟩
    obtain ⟨x, ⟨-, hx⟩, _, ⟨a, ha, rfl⟩, rfl⟩ := Language.mem_mul.mp hz
    refine ⟨hp, ?_⟩
    obtain ⟨y, rfl⟩ := hp
    simp [advance, List.getElem?_zipWith, hx, ha]

lemma getElem?_closure (seen : Bool) (v : List Bool) (j : ℕ) :
    (closure seen v)[j]? = some true ↔
      j < v.length ∧ (seen = true ∨ ∃ i ≤ j, v[i]? = some true) := by
  induction v generalizing seen j with
  | nil => simp [closure]
  | cons b v ih =>
    cases j with
    | zero => simp [closure]
    | succ j =>
      rw [closure, List.getElem?_cons_succ, ih]
      constructor
      · rintro ⟨hj, h | ⟨i, hi, hv⟩⟩
        · refine ⟨by simpa using hj, ?_⟩
          rcases Bool.or_eq_true _ _ |>.mp h with h | h
          · exact Or.inl h
          · exact Or.inr ⟨0, by omega, by simp [h]⟩
        · exact ⟨by simpa using hj, Or.inr ⟨i + 1, by omega, by simpa using hv⟩⟩
      · rintro ⟨hj, h | ⟨i, hi, hv⟩⟩
        · exact ⟨by simpa using hj, Or.inl (by simp [h])⟩
        · cases i with
          | zero => exact ⟨by simpa using hj, Or.inl (by simp_all)⟩
          | succ i => exact ⟨by simpa using hj, Or.inr ⟨i, by omega, by simpa using hv⟩⟩

lemma reached_closure (subject : List α) {v : List Bool} (h : v.length = subject.length + 1) :
    reached subject (closure false v) = reached subject v * ⊤ ⊓ prefixes subject := by
  ext z
  rw [mem_reached, getElem?_closure]
  constructor
  · rintro ⟨hz, hj, hn | ⟨i, hi, hv⟩⟩
    · cases hn
    · refine ⟨?_, hz⟩
      have ht : z.take i ++ z.drop i ∈ reached subject v * ⊤ := by
        refine Language.append_mem_mul ⟨(List.take_prefix i z).trans hz, ?_⟩ trivial
        rw [List.length_take, Nat.min_eq_left hi, hv]
      rwa [List.take_append_drop] at ht
  · rintro ⟨hz, hp⟩
    obtain ⟨x, ⟨-, hx⟩, y, -, rfl⟩ := Language.mem_mul.mp hz
    have hl : (x ++ y).length ≤ subject.length := List.IsPrefix.length_le hp
    exact ⟨hp, by omega, Or.inr ⟨x.length, by simp, hx⟩⟩

lemma length_advanceAll [BEq α] {subject : List α} (word : List α) {v : List Bool}
    (h : v.length = subject.length + 1) :
    (advanceAll word subject v).length = subject.length + 1 := by
  induction word generalizing v with
  | nil => exact h
  | cons a word ih => exact ih (length_advance h)

lemma lettersOf_beq [BEq α] [LawfulBEq α] (a : α) : lettersOf (· == a) = {[a]} := by
  ext x
  rw [mem_lettersOf]
  constructor
  · rintro ⟨b, hb, rfl⟩
    obtain rfl := eq_of_beq hb
    rfl
  · rintro rfl
    exact ⟨a, by simp, rfl⟩

lemma singleton_mul_singleton (x y : List α) : ({x} : Language α) * {y} = {x ++ y} := by
  ext z
  rw [Language.mem_mul]
  constructor
  · rintro ⟨a, rfl, b, rfl, rfl⟩
    rfl
  · rintro rfl
    exact ⟨x, rfl, y, rfl, rfl⟩

lemma reached_advanceAll [BEq α] [LawfulBEq α] (word subject : List α) (v : List Bool) :
    reached subject (advanceAll word subject v) =
      reached subject v * {word} ⊓ prefixes subject := by
  induction word generalizing v with
  | nil =>
    have h1 : ({[]} : Language α) = 1 := rfl
    rw [h1, mul_one, reached_inf]
    rfl
  | cons a word ih =>
    have h : advanceAll (a :: word) subject v =
        advanceAll word subject (advance (· == a) subject v) := rfl
    rw [h, ih, reached_advance, mul_inf_prefixes, lettersOf_beq, mul_assoc,
      singleton_mul_singleton, List.singleton_append]

lemma getLastD_iff {subject : List α} {v : List Bool} (h : v.length = subject.length + 1) :
    v.getLastD false = true ↔ subject ∈ reached subject v := by
  rw [mem_reached, List.getLastD_eq_getLast?, List.getLast?_eq_getElem?, h, Nat.add_sub_cancel]
  have hl : subject.length < v.length := by omega
  simp [List.getElem?_eq_getElem hl]

end PathSieve.Positions
