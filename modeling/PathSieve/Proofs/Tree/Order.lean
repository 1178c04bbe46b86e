import Mathlib.Data.List.Perm.Basic
import PathSieve.Proofs.Tree

/-! The order of entries. A directory yields its entries in any order, and sorting a tree undoes
whatever order that was. -/

namespace PathSieve.Tree

/-- The same tree, in which directories yield their entries in another order. -/
inductive Reordered : Tree → Tree → Prop
  | refl (t : Tree) : Reordered t t
  | trans {t u v : Tree} : Reordered t u → Reordered u v → Reordered t v
  | swap {es es' : List (Bytes × Tree)} (access : Access) : es.Perm es' →
      Reordered (directory es access) (directory es' access)
  | inside {t t' : Tree} (before after : List (Bytes × Tree)) (name : Bytes) (access : Access) :
      Reordered t t' → Reordered (directory (before ++ (name, t) :: after) access)
        (directory (before ++ (name, t') :: after) access)

lemma Reordered.isDirectory {t t' : Tree} (h : Reordered t t') :
    t'.isDirectory = t.isDirectory := by
  induction h with
  | refl | swap | inside => rfl
  | trans _ _ ih ih' => exact ih'.trans ih

lemma Reordered.isOpen {t t' : Tree} (h : Reordered t t') (ht : t.IsOpen) : t'.IsOpen := by
  induction h with
  | refl => exact ht
  | trans _ _ ih ih' => exact ih' (ih ht)
  | swap access hp =>
    rw [isOpen_directory_iff] at ht ⊢
    exact ⟨ht.1, fun e he => ht.2 e (hp.mem_iff.mpr he)⟩
  | inside before after name access _ ih =>
    rw [isOpen_directory_iff, List.forall_mem_append, List.forall_mem_cons] at ht ⊢
    exact ⟨ht.1, ht.2.1, ih ht.2.2.1, ht.2.2.2⟩

lemma Reordered.legal {t t' : Tree} (h : Reordered t t') (ht : Legal t) : Legal t' := by
  induction h with
  | refl => exact ht
  | trans _ _ ih ih' => exact ih' (ih ht)
  | swap access hp =>
    refine .directory ((hp.map _).nodup_iff.mp ht.nodup) ?_ ?_
    · exact fun e he => (ht.child (hp.mem_iff.mpr he)).1
    · exact fun e he => (ht.child (hp.mem_iff.mpr he)).2
  | @inside t t' before after name access _ ih =>
    have hold : (name, t) ∈ before ++ (name, t) :: after :=
      List.mem_append_right _ List.mem_cons_self
    have hchild (e : Bytes × Tree) (he : e ∈ before ++ (name, t') :: after) :
        Path.IsName e.1 ∧ Legal e.2 := by
      rcases List.mem_append.mp he with he | he
      · exact ht.child (List.mem_append_left _ he)
      rcases List.mem_cons.mp he with rfl | he
      · exact ⟨(ht.child hold).1, ih (ht.child hold).2⟩
      · exact ht.child (List.mem_append_right _ (List.mem_cons_of_mem _ he))
    have hnodup := ht.nodup
    rw [List.map_append, List.map_cons] at hnodup
    refine .directory ?_ (fun e he => (hchild e he).1) fun e he => (hchild e he).2
    rw [List.map_append, List.map_cons]
    exact hnodup

section Entries

variable {opens : List Bytes → Bool}

lemma entriesOf_eq (depth : ℕ) (names : List Bytes) (es : List (Bytes × Tree)) :
    entriesOf opens depth names es =
      es.flatMap fun e => entries opens depth (names ++ [e.1]) e.2 := by
  induction es with
  | nil => rfl
  | cons e es ih => rw [entriesOf, ih, List.flatMap_cons]

lemma Reordered.entries {t t' : Tree} (h : Reordered t t') (depth : ℕ) (names : List Bytes) :
    (entries opens depth names t).Perm (entries opens depth names t') := by
  induction h generalizing depth names with
  | refl => exact .refl _
  | trans _ _ ih ih' => exact (ih depth names).trans (ih' depth names)
  | swap access hp =>
    rw [Tree.entries, Tree.entries]
    refine .cons _ ?_
    split_ifs
    · rw [entriesOf_eq, entriesOf_eq]
      exact hp.flatMap_right _
    · exact .refl _
  | inside before after name access _ ih =>
    rw [Tree.entries, Tree.entries]
    refine .cons _ ?_
    split_ifs
    · rw [entriesOf_eq, entriesOf_eq, List.flatMap_append, List.flatMap_append, List.flatMap_cons,
        List.flatMap_cons]
      exact .append_left _ (.append_right _ (ih _ _))
    · exact .refl _

variable {opens' : List Bytes → Bool}

mutual

lemma entries_congr (depth : ℕ) (names : List Bytes) (t : Tree)
    (h : ∀ more es access, At t more (directory es access) →
      opens (names ++ more) = opens' (names ++ more)) :
    entries opens depth names t = entries opens' depth names t := by
  cases t with
  | file | link => rfl
  | directory es access =>
    have hopens := h [] es access (.here _)
    rw [List.append_nil] at hopens
    rw [entries, entries, hopens, entriesOf_congr (depth - 1) names es]
    exact fun name t ht more es' access' hu => h _ es' access' (.inside ht hu)

lemma entriesOf_congr (depth : ℕ) (names : List Bytes) (es : List (Bytes × Tree))
    (h : ∀ name t, (name, t) ∈ es → ∀ more es' access, At t more (directory es' access) →
      opens (names ++ name :: more) = opens' (names ++ name :: more)) :
    entriesOf opens depth names es = entriesOf opens' depth names es := by
  match es with
  | [] => rfl
  | (name, t) :: es =>
    have hhead : entries opens depth (names ++ [name]) t =
        entries opens' depth (names ++ [name]) t := by
      refine entries_congr depth (names ++ [name]) t fun more es' access hu => ?_
      rw [List.append_assoc]
      exact h name t List.mem_cons_self more es' access hu
    rw [entriesOf, entriesOf, hhead, entriesOf_congr depth names es]
    exact fun name t ht => h name t (List.mem_cons_of_mem _ ht)

end

end Entries

lemma pairwise_mergeSort (es : List (Bytes × Tree)) :
    (es.mergeSort comesBefore).Pairwise fun a b => a.1 ≤ b.1 := by
  have h : (es.mergeSort comesBefore).Pairwise fun a b => comesBefore a b = true := by
    refine List.pairwise_mergeSort (fun a b c hab hbc => ?_) (fun a b => ?_) es
    · rw [comesBefore, decide_eq_true_iff] at hab hbc ⊢
      exact List.le_trans hab hbc
    · rw [comesBefore, comesBefore, Bool.or_eq_true, decide_eq_true_iff, decide_eq_true_iff]
      exact List.le_total a.1 b.1
  exact h.imp of_decide_eq_true

lemma mergeSort_eq_of_perm {es es' : List (Bytes × Tree)} (hnodup : (es.map (·.1)).Nodup)
    (h : es.Perm es') : es.mergeSort comesBefore = es'.mergeSort comesBefore := by
  have hperm := (List.mergeSort_perm es comesBefore).trans
    (h.trans (List.mergeSort_perm es' comesBefore).symm)
  refine hperm.eq_of_pairwise ?_ (pairwise_mergeSort es) (pairwise_mergeSort es')
  intro a b ha hb hab hba
  -- the names of a directory are distinct, so the order by names has no ties
  have hname : a.1 = b.1 := List.le_antisymm hab hba
  have ha' := (List.mergeSort_perm es comesBefore).mem_iff.mp ha
  have hb' := h.mem_iff.mpr ((List.mergeSort_perm es' comesBefore).mem_iff.mp hb)
  exact List.inj_on_of_nodup_map hnodup ha' hb' hname

lemma Reordered.sorted_eq {t t' : Tree} (h : Reordered t t') (ht : Legal t) :
    t.sorted = t'.sorted := by
  induction h with
  | refl => rfl
  | trans htu _ ih ih' => exact (ih ht).trans (ih' (htu.legal ht))
  | @swap es es' access hp =>
    have hnodup : ((sortedEntries es).map (·.1)).Nodup := by
      rw [sortedEntries_eq, List.map_map]
      exact ht.nodup
    rw [sorted, sorted, mergeSort_eq_of_perm hnodup]
    rw [sortedEntries_eq, sortedEntries_eq]
    exact hp.map _
  | @inside t t' before after name access _ ih =>
    have hchild := ih (ht.child (List.mem_append_right before List.mem_cons_self)).2
    rw [sorted, sorted, sortedEntries_eq, sortedEntries_eq, List.map_append, List.map_append,
      List.map_cons, List.map_cons, hchild]

end PathSieve.Tree
