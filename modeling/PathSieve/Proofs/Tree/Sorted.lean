import PathSieve.Proofs.Tree.Order

namespace PathSieve.Tree

inductive Ordered : Tree → Prop
  | file (content : Bytes) (isExecutable isReadable : Bool) :
      Ordered (file content isExecutable isReadable)
  | link (target : Bytes) : Ordered (link target)
  | directory {es : List (Bytes × Tree)} {access : Access} :
      es.Pairwise (fun a b => a.1 < b.1) → (∀ e ∈ es, Ordered e.2) → Ordered (directory es access)

lemma pairwise_lt_mergeSort {es : List (Bytes × Tree)} (h : (es.map (·.1)).Nodup) :
    (es.mergeSort comesBefore).Pairwise fun a b => a.1 < b.1 := by
  have hne : (es.mergeSort comesBefore).Pairwise fun a b => a.1 ≠ b.1 := by
    rw [← List.pairwise_map (f := fun e : Bytes × Tree => e.1)]
    exact ((List.mergeSort_perm es comesBefore).map _).nodup_iff.mpr h
  refine ((pairwise_mergeSort es).and hne).imp fun hab => ?_
  exact (List.le_iff_lt_or_eq.mp hab.1).resolve_right hab.2

lemma Legal.ordered_sorted {t : Tree} (h : Legal t) : t.sorted.Ordered := by
  induction h with
  | file content isExecutable isReadable =>
    rw [Tree.sorted]
    exact .file content isExecutable isReadable
  | link target =>
    rw [Tree.sorted]
    exact .link target
  | @directory es access hn hnames hes ih =>
    rw [Tree.sorted, sortedEntries_eq]
    refine .directory (pairwise_lt_mergeSort ?_) ?_
    · rw [List.map_map]
      exact hn
    · intro e he
      obtain ⟨e', he', rfl⟩ := List.mem_map.mp (List.mem_mergeSort.mp he)
      exact ih e' he'

variable {opens : List Bytes → Bool}

mutual

lemma pairwise_entries (depth : ℕ) (names : List Bytes) (t : Tree) (ht : t.Ordered) :
    (entries opens depth names t).Pairwise fun a b => a.names < b.names := by
  cases ht with
  | file | link => exact List.pairwise_singleton _ _
  | directory hes hall =>
    rename_i es access
    rw [entries, List.pairwise_cons]
    refine ⟨fun e he => ?_, ?_⟩
    · split_ifs at he with ho
      · obtain ⟨name, t, more, u, -, hn, -⟩ := exists_of_mem_entriesOf _ _ _ he
        have hlt : names ++ [] < names ++ name :: more :=
          List.append_left_lt (List.nil_lt_cons name more)
        rwa [List.append_nil, ← hn] at hlt
      · cases he
    · split_ifs
      · exact pairwise_entriesOf (depth - 1) names es hes hall
      · exact .nil

lemma pairwise_entriesOf (depth : ℕ) (names : List Bytes) (es : List (Bytes × Tree))
    (hes : es.Pairwise fun a b => a.1 < b.1) (h : ∀ e ∈ es, Ordered e.2) :
    (entriesOf opens depth names es).Pairwise fun a b => a.names < b.names := by
  match es with
  | [] => exact .nil
  | (name, t) :: es =>
    rw [List.pairwise_cons] at hes
    rw [entriesOf, List.pairwise_append]
    refine ⟨pairwise_entries depth _ t (h _ List.mem_cons_self),
      pairwise_entriesOf depth names es hes.2 fun e he => h e (List.mem_cons_of_mem _ he), ?_⟩
    -- entries of two neighbours differ in the first name below the directory
    intro a ha b hb
    obtain ⟨more, -, ha', -⟩ := exists_of_mem_entries _ _ _ ha
    obtain ⟨name', t', more', -, ht', hb', -⟩ := exists_of_mem_entriesOf _ _ _ hb
    rw [ha', hb', List.append_assoc]
    refine List.append_left_lt (List.cons_lt_cons_iff.mpr (Or.inl ?_))
    exact hes.1 _ ht'

end

mutual

lemma entries_eq_filter {depth deeper : ℕ} (h : depth ≤ deeper) (names : List Bytes) (t : Tree) :
    entries opens depth names t =
      (entries opens deeper names t).filter fun e => e.names.length ≤ names.length + depth := by
  cases t with
  | file | link => simp [entries]
  | directory es access =>
    rw [entries, entries, List.filter_cons_of_pos (by simp)]
    refine congrArg _ ?_
    cases depth with
    | zero =>
      rw [if_neg fun ho => ho.1 rfl, eq_comm, List.filter_eq_nil_iff]
      intro e he
      split_ifs at he
      · obtain ⟨name, t, more, u, -, hn, -⟩ := exists_of_mem_entriesOf _ _ _ he
        simp [hn]
      · cases he
    | succ depth =>
      obtain ⟨deeper, rfl⟩ := Nat.exists_eq_succ_of_ne_zero (Nat.ne_zero_of_lt h)
      by_cases ho : opens names
      · rw [if_pos ⟨Nat.succ_ne_zero _, ho⟩, if_pos ⟨Nat.succ_ne_zero _, ho⟩]
        exact entriesOf_eq_filter (Nat.le_of_succ_le_succ h) names es
      · rw [if_neg fun hboth => ho hboth.2, if_neg fun hboth => ho hboth.2, List.filter_nil]

lemma entriesOf_eq_filter {depth deeper : ℕ} (h : depth ≤ deeper) (names : List Bytes)
    (es : List (Bytes × Tree)) :
    entriesOf opens depth names es = (entriesOf opens deeper names es).filter fun e =>
      e.names.length ≤ names.length + (depth + 1) := by
  match es with
  | [] => rfl
  | (name, t) :: es =>
    rw [entriesOf, entriesOf, List.filter_append, entriesOf_eq_filter h names es,
      entries_eq_filter h (names ++ [name]) t, List.length_append, List.length_singleton,
      Nat.add_assoc, Nat.add_comm 1]

end

end PathSieve.Tree
