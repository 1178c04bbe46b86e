import Mathlib.Tactic.Common
import PathSieve.Text.Line

namespace PathSieve.Line

variable {α : Type} {newline : α}

lemma unsplit_cons (l : List α) (ls : List (List α)) :
    unsplit newline (l :: ls) = l ++ newline :: unsplit newline ls := by
  rw [unsplit, List.flatMap_cons, List.append_assoc]
  rfl

/-- A text cut into lines at its newlines. A last piece that no newline ends is a line, too. -/
inductive Cut (newline : α) : List α → List (List α) → Prop
  | nil : Cut newline [] []
  | last {l : List α} : l ≠ [] → newline ∉ l → Cut newline l [l]
  | line {l s : List α} {ls : List (List α)} :
      newline ∉ l → Cut newline s ls → Cut newline (l ++ newline :: s) (l :: ls)

lemma Cut.newline_notMem {s : List α} {ls : List (List α)} (h : Cut newline s ls) :
    ∀ l ∈ ls, newline ∉ l := by
  induction h with
  | nil => exact fun _ hl => absurd hl List.not_mem_nil
  | last _ hmem => exact List.forall_mem_singleton.mpr hmem
  | line hl _ ih => exact List.forall_mem_cons.mpr ⟨hl, ih⟩

lemma Cut.subset {s : List α} {ls : List (List α)} (h : Cut newline s ls) : ∀ l ∈ ls, l ⊆ s := by
  induction h with
  | nil => exact fun _ hl => absurd hl List.not_mem_nil
  | last => exact List.forall_mem_singleton.mpr (List.Subset.refl _)
  | line _ _ ih =>
    refine List.forall_mem_cons.mpr ⟨List.subset_append_left _ _, fun l hl => ?_⟩
    exact List.Subset.trans (ih l hl)
      (List.Subset.trans (List.subset_cons_self _ _) (List.subset_append_right _ _))

variable [DecidableEq α]

lemma split_of_not_mem {s : List α} (hs : s ≠ []) (h : newline ∉ s) : split newline s = [s] := by
  induction s with
  | nil => exact absurd rfl hs
  | cons a s ih =>
    obtain ⟨ha, hmem⟩ := not_or.mp (mt List.mem_cons.mpr h)
    rw [split, if_neg (Ne.symm ha)]
    by_cases hnil : s = []
    · rw [hnil]
      rfl
    · rw [ih hnil hmem]

lemma length_split_append_newline (s t : List α) :
    (split newline (s ++ newline :: t)).length =
      s.count newline + 1 + (split newline t).length := by
  induction hn : s.count newline generalizing s with
  | zero =>
    rw [split_append_newline (List.count_eq_zero.mp hn), List.length_cons]
    omega
  | succ n ih =>
    have hmem : newline ∈ s := List.count_pos_iff.mp (by omega)
    obtain ⟨l, r, rfl, hl⟩ := List.eq_append_cons_of_mem hmem
    rw [List.count_append, List.count_eq_zero.mpr hl, List.count_cons_self] at hn
    rw [List.append_assoc, List.cons_append, split_append_newline hl, List.length_cons,
      ih r (by omega)]
    omega

lemma length_le_length_split_unsplit (ls : List (List α)) :
    ls.length ≤ (split newline (unsplit newline ls)).length := by
  induction ls with
  | nil => exact Nat.zero_le _
  | cons l ls ih =>
    rw [unsplit_cons, length_split_append_newline, List.length_cons]
    omega

lemma length_split_unsplit {ls : List (List α)} :
    (split newline (unsplit newline ls)).length = ls.length ↔ ∀ l ∈ ls, newline ∉ l := by
  constructor
  · intro h
    induction ls with
    | nil => exact fun _ hl => absurd hl List.not_mem_nil
    | cons l ls ih =>
      have hle : ls.length ≤ (split newline (unsplit newline ls)).length :=
        length_le_length_split_unsplit ls
      rw [unsplit_cons, length_split_append_newline, List.length_cons] at h
      have hl : newline ∉ l := List.count_eq_zero.mp (by omega)
      exact List.forall_mem_cons.mpr ⟨hl, ih (by omega)⟩
  · intro h
    rw [split_unsplit h]

lemma cut_split (newline : α) (s : List α) : Cut newline s (split newline s) := by
  induction hn : s.length using Nat.strongRecOn generalizing s with
  | ind n ih =>
    by_cases hmem : newline ∈ s
    · obtain ⟨l, rest, rfl, hl⟩ := List.eq_append_cons_of_mem hmem
      rw [List.length_append, List.length_cons] at hn
      rw [split_append_newline hl]
      exact .line hl (ih rest.length (by omega) rest rfl)
    · by_cases hs : s = []
      · rw [hs]
        exact .nil
      · rw [split_of_not_mem hs hmem]
        exact .last hs hmem

lemma Cut.split_eq {s : List α} {ls : List (List α)} (h : Cut newline s ls) :
    split newline s = ls := by
  induction h with
  | nil => rfl
  | last hl hmem => exact split_of_not_mem hl hmem
  | line hl _ ih => rw [split_append_newline hl, ih]

lemma not_mem_of_mem_split {s l : List α} (h : l ∈ split newline s) : newline ∉ l :=
  (cut_split newline s).newline_notMem l h

lemma split_append_cons (s t : List α) :
    split newline (s ++ newline :: t) = split newline (s ++ [newline]) ++ split newline t := by
  obtain ⟨ls, h⟩ : ∃ ls, Cut newline s ls := ⟨_, cut_split newline s⟩
  induction h with
  | nil => simp [split]
  | last _ hmem =>
    rw [split_append_newline hmem, split_append_newline hmem]
    rfl
  | line hl _ ih =>
    rw [List.append_assoc, List.append_assoc, List.cons_append, List.cons_append,
      split_append_newline hl, split_append_newline hl, ih, List.cons_append]

lemma dropReturns_cons {c : Char} {s : Text} (h : ¬ (c = '\r' ∧ s.head? = some '\n')) :
    dropReturns (c :: s) = c :: dropReturns s := by
  rw [dropReturns]
  rintro s' rfl rfl
  exact h ⟨rfl, rfl⟩

lemma dropReturns_append_newline {l : Text} (h : '\n' ∉ l) (hend : l.getLast? ≠ some '\r')
    (s : Text) : dropReturns (l ++ '\n' :: s) = l ++ '\n' :: dropReturns s := by
  induction l with
  | nil => exact dropReturns_cons (by simp)
  | cons c l ih =>
    obtain ⟨hc, hl⟩ := not_or.mp (mt List.mem_cons.mpr h)
    cases l with
    | nil =>
      have hreturn : c ≠ '\r' := fun he => hend (congrArg some he)
      rw [List.singleton_append, dropReturns_cons (fun hboth => hreturn hboth.1),
        dropReturns_cons (by simp), List.singleton_append]
    | cons d l =>
      have hd : d ≠ '\n' := fun he => hl (he ▸ List.mem_cons_self)
      have hnext : (d :: l ++ '\n' :: s).head? ≠ some '\n' := fun he => hd (Option.some.inj he)
      rw [List.getLast?_cons_cons] at hend
      rw [List.cons_append, dropReturns_cons (fun hboth => hnext hboth.2), ih hl hend]
      rfl

lemma dropReturns_unsplit {ls : List Text} (h : ∀ l ∈ ls, '\n' ∉ l ∧ l.getLast? ≠ some '\r') :
    dropReturns (unsplit '\n' ls) = unsplit '\n' ls := by
  induction ls with
  | nil => rfl
  | cons l ls ih =>
    obtain ⟨⟨hnewline, hend⟩, hls⟩ := List.forall_mem_cons.mp h
    rw [unsplit_cons, dropReturns_append_newline hnewline hend, ih hls]

end PathSieve.Line
