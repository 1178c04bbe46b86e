import Mathlib.Data.List.Nodup
import PathSieve.Proofs.Path
import PathSieve.Tree.Visit

/-! What a tree holds. `At` says which tree stands at the end of a path of names that passes through
directories only, and `entries` enumerates those within a depth. -/

namespace PathSieve.Tree

inductive At : Tree → List Bytes → Tree → Prop
  | here (t : Tree) : At t [] t
  | inside {es : List (Bytes × Tree)} {access : Access} {name : Bytes} {t u : Tree}
      {names : List Bytes} : (name, t) ∈ es → At t names u →
      At (directory es access) (name :: names) u

/-- Every directory holds at most one entry of a name, and the names are names of files. -/
inductive Legal : Tree → Prop
  | file (content : Bytes) (isExecutable isReadable : Bool) :
      Legal (file content isExecutable isReadable)
  | link (target : Bytes) : Legal (link target)
  | directory {es : List (Bytes × Tree)} {access : Access} : (es.map (·.1)).Nodup →
      (∀ e ∈ es, Path.IsName e.1) → (∀ e ∈ es, Legal e.2) → Legal (directory es access)

structure Entry where
  names : List Bytes
  isDirectory : Bool
  deriving DecidableEq, Repr

mutual

/-- The entries within a depth below the names of a tree, in the order of a walk that reads the
directories which `opens` tells. -/
def entries (opens : List Bytes → Bool) (depth : ℕ) (names : List Bytes) : Tree → List Entry
  | directory es _ => ⟨names, true⟩ ::
      if depth ≠ 0 ∧ opens names then entriesOf opens (depth - 1) names es else []
  | _ => [⟨names, false⟩]

def entriesOf (opens : List Bytes → Bool) (depth : ℕ) (names : List Bytes) :
    List (Bytes × Tree) → List Entry
  | [] => []
  | (name, t) :: es => entries opens depth (names ++ [name]) t ++ entriesOf opens depth names es

end

lemma isDirectory_iff {t : Tree} :
    t.isDirectory = true ↔ ∃ es access, t = .directory es access := by
  cases t <;> simp [isDirectory]

lemma At.eq_of_nil {t u : Tree} (h : At t [] u) : u = t := by
  cases h
  rfl

lemma Legal.singleton {name : Bytes} {t : Tree} (hname : Path.IsName name) (ht : t.Legal)
    (access : Access) : (Tree.directory [(name, t)] access).Legal := by
  refine .directory (List.nodup_singleton _) ?_ ?_
  · simpa using hname
  · simpa using ht

section Directory

variable {es : List (Bytes × Tree)} {access : Access}

lemma Legal.nodup (h : Legal (.directory es access)) : (es.map (·.1)).Nodup := by
  cases h
  assumption

lemma Legal.child (h : Legal (.directory es access)) {name : Bytes} {t : Tree}
    (ht : (name, t) ∈ es) : Path.IsName name ∧ Legal t := by
  cases h with
  | directory _ hnames hes => exact ⟨hnames _ ht, hes _ ht⟩

end Directory

section Entry

variable {es : List (Bytes × Tree)} {access : Access} {name : Bytes} {t : Tree}

lemma mem_of_named (h : named? name es = some t) : (name, t) ∈ es := by
  obtain ⟨e, he, rfl⟩ := Option.map_eq_some_iff.mp h
  have hname : e.1 = name := by simpa using List.find?_some he
  rw [← hname]
  exact List.mem_of_find?_eq_some he

lemma named?_eq_some_iff (hn : (es.map (·.1)).Nodup) :
    named? name es = some t ↔ (name, t) ∈ es := by
  refine ⟨mem_of_named, fun h => ?_⟩
  cases hu : named? name es with
  | none =>
    rw [Tree.named?, Option.map_eq_none_iff, List.find?_eq_none] at hu
    exact absurd (beq_self_eq_true name) (hu _ h)
  | some u =>
    have hsame := List.inj_on_of_nodup_map hn h (mem_of_named hu) rfl
    rw [(Prod.mk.inj hsame).2]

def canListAt : List Bytes → Tree → Bool
  | [], directory _ access => access.canList
  | name :: names, directory es access =>
    access.canEnter && (named? name es).any (canListAt names)
  | _, _ => false

lemma canListAt_cons (h : Legal (.directory es access)) (ht : (name, t) ∈ es)
    (names : List Bytes) :
    (Tree.directory es access).canListAt (name :: names) =
      (access.canEnter && t.canListAt names) := by
  rw [canListAt, (named?_eq_some_iff h.nodup).mpr ht, Option.any_some]

def IsOpen (t : Tree) : Prop :=
  ∀ names es access, At t names (directory es access) → access = .free

lemma isOpen_directory_iff :
    (Tree.directory es access).IsOpen ↔ access = .free ∧ ∀ e ∈ es, e.2.IsOpen := by
  constructor
  · intro h
    exact ⟨h [] es access (.here _), fun e he _ _ _ hu => h _ _ _ (.inside he hu)⟩
  · rintro ⟨rfl, h⟩ names es' access' hu
    cases hu with
    | here => rfl
    | inside ht hu => exact h _ ht _ _ _ hu

lemma IsOpen.canListAt (hopen : t.IsOpen) (ht : t.Legal) {names : List Bytes}
    (h : At t names (directory es access)) : t.canListAt names = true := by
  generalize hu : directory es access = u at h
  induction h with
  | here t =>
    subst hu
    rw [Tree.canListAt, hopen [] es access (.here _)]
    rfl
  | @inside es' access' name t _ names ht' h ih =>
    obtain ⟨rfl, hchild⟩ := isOpen_directory_iff.mp hopen
    rw [canListAt_cons ht ht', ih (hchild _ ht') (ht.child ht').2 hu]
    rfl

end Entry

lemma Legal.at {t u : Tree} {names : List Bytes} (h : Legal t) (hu : At t names u) :
    (∀ name ∈ names, Path.IsName name) ∧ Legal u := by
  induction hu with
  | here => exact ⟨fun _ hn => absurd hn List.not_mem_nil, h⟩
  | inside ht _ ih =>
    obtain ⟨hname, hlegal⟩ := h.child ht
    exact ⟨List.forall_mem_cons.mpr ⟨hname, (ih hlegal).1⟩, (ih hlegal).2⟩

lemma exists_of_at_append {t v : Tree} {names more : List Bytes} (h : At t (names ++ more) v) :
    ∃ u, At t names u ∧ At u more v := by
  induction names generalizing t with
  | nil => exact ⟨t, .here t, h⟩
  | cons name names ih =>
    cases h with
    | inside ht h =>
      obtain ⟨u, hu, hv⟩ := ih h
      exact ⟨u, .inside ht hu, hv⟩

lemma At.unique {t u v : Tree} {names : List Bytes} (h : Legal t) (hu : At t names u)
    (hv : At t names v) : u = v := by
  induction hu with
  | here => exact hv.eq_of_nil.symm
  | inside ht _ ih =>
    cases hv with
    | inside ht' hv =>
      obtain ⟨-, rfl⟩ := Prod.mk.inj (List.inj_on_of_nodup_map h.nodup ht ht' rfl)
      exact ih (h.child ht).2 hv

lemma At.isDirectory {t u v : Tree} {names more : List Bytes} (h : Legal t) (hu : At t names u)
    (hv : At t (names ++ more) v) (hmore : more ≠ []) : u.isDirectory = true := by
  obtain ⟨w, hw, hwv⟩ := exists_of_at_append hv
  obtain rfl := hu.unique h hw
  cases hwv with
  | here => exact absurd rfl hmore
  | inside => rfl

variable {opens : List Bytes → Bool}

mutual

lemma exists_of_mem_entries (depth : ℕ) (names : List Bytes) (t : Tree) {e : Entry}
    (h : e ∈ entries opens depth names t) :
    ∃ more u, e.names = names ++ more ∧ more.length ≤ depth ∧ At t more u ∧
      e.isDirectory = u.isDirectory := by
  cases t with
  | file | link =>
    obtain rfl := List.mem_singleton.mp h
    exact ⟨[], _, (List.append_nil names).symm, Nat.zero_le _, .here _, rfl⟩
  | directory es access =>
    rw [entries] at h
    rcases List.mem_cons.mp h with rfl | h
    · exact ⟨[], _, (List.append_nil names).symm, Nat.zero_le _, .here _, rfl⟩
    · split_ifs at h with ho
      · obtain ⟨name, t, more, u, ht, hn, hl, hu, hd⟩ :=
          exists_of_mem_entriesOf (depth - 1) names es h
        refine ⟨name :: more, u, hn, ?_, .inside ht hu, hd⟩
        rw [List.length_cons]
        omega
      · cases h

lemma exists_of_mem_entriesOf (depth : ℕ) (names : List Bytes) (es : List (Bytes × Tree))
    {e : Entry} (h : e ∈ entriesOf opens depth names es) :
    ∃ name t more u, (name, t) ∈ es ∧ e.names = names ++ name :: more ∧ more.length ≤ depth ∧
      At t more u ∧ e.isDirectory = u.isDirectory := by
  match es with
  | [] => cases h
  | (name, t) :: es =>
    rw [entriesOf] at h
    rcases List.mem_append.mp h with h | h
    · obtain ⟨more, u, hn, hl, hu, hd⟩ := exists_of_mem_entries depth (names ++ [name]) t h
      rw [List.append_assoc] at hn
      exact ⟨name, t, more, u, List.mem_cons_self, hn, hl, hu, hd⟩
    · obtain ⟨name, t, more, u, ht, hrest⟩ := exists_of_mem_entriesOf depth names es h
      exact ⟨name, t, more, u, List.mem_cons_of_mem _ ht, hrest⟩

end

lemma entries_subset_entriesOf {depth : ℕ} {names : List Bytes} {es : List (Bytes × Tree)}
    {name : Bytes} {t : Tree} (ht : (name, t) ∈ es) :
    entries opens depth (names ++ [name]) t ⊆ entriesOf opens depth names es := by
  induction es with
  | nil => cases ht
  | cons e es ih =>
    obtain ⟨name', t'⟩ := e
    rw [entriesOf]
    rcases List.mem_cons.mp ht with he | ht
    · obtain ⟨rfl, rfl⟩ := Prod.mk.inj he
      exact List.subset_append_left _ _
    · exact List.subset_append_of_subset_right _ (ih ht)

lemma mem_entries {t u : Tree} {more : List Bytes} (hu : At t more u) {depth : ℕ}
    (hl : more.length ≤ depth) {names : List Bytes}
    (hopen : ∀ before es access, At t before (directory es access) →
      opens (names ++ before)) :
    ⟨names ++ more, u.isDirectory⟩ ∈ entries opens depth names t := by
  induction hu generalizing names depth with
  | here t =>
    rw [List.append_nil]
    cases t <;> exact List.mem_cons_self
  | @inside es access name t u more ht hu ih =>
    rw [List.length_cons] at hl
    have ho : depth ≠ 0 ∧ opens names := by
      have := hopen [] es access (.here _)
      rw [List.append_nil] at this
      exact ⟨by omega, this⟩
    rw [entries, if_pos ho]
    refine List.mem_cons_of_mem _ (entries_subset_entriesOf ht ?_)
    have hmem : ⟨names ++ [name] ++ more, u.isDirectory⟩ ∈
        entries opens (depth - 1) (names ++ [name]) t := by
      refine ih (by omega) fun before es' access' h => ?_
      rw [List.append_assoc]
      exact hopen _ es' access' (.inside ht h)
    rwa [List.append_assoc] at hmem

mutual

lemma nodup_entries (depth : ℕ) (names : List Bytes) (t : Tree) (h : Legal t) :
    ((entries opens depth names t).map (·.names)).Nodup := by
  cases t with
  | file | link => exact List.nodup_singleton _
  | directory es access =>
    rw [entries]
    split_ifs
    · rw [List.map_cons, List.nodup_cons]
      refine ⟨?_, nodup_entriesOf (depth - 1) names es h.nodup fun e he => (h.child he).2⟩
      intro hmem
      obtain ⟨e, he, hn⟩ := List.mem_map.mp hmem
      obtain ⟨name, _, more, _, _, hn', _⟩ := exists_of_mem_entriesOf _ _ _ he
      rw [hn] at hn'
      simpa using congrArg List.length hn'
    · exact List.nodup_singleton _

lemma nodup_entriesOf (depth : ℕ) (names : List Bytes) (es : List (Bytes × Tree))
    (hn : (es.map (·.1)).Nodup) (h : ∀ e ∈ es, Legal e.2) :
    ((entriesOf opens depth names es).map (·.names)).Nodup := by
  match es with
  | [] => exact List.nodup_nil
  | (name, t) :: es =>
    rw [List.map_cons, List.nodup_cons] at hn
    rw [entriesOf, List.map_append, List.nodup_append]
    refine ⟨nodup_entries depth _ t (h _ List.mem_cons_self),
      nodup_entriesOf depth names es hn.2 fun e he => h e (List.mem_cons_of_mem _ he), ?_⟩
    -- Two entries of one directory differ in the first name below it.
    rintro _ ha _ hb rfl
    obtain ⟨e, he, rfl⟩ := List.mem_map.mp ha
    obtain ⟨e', he', hee⟩ := List.mem_map.mp hb
    obtain ⟨more, _, hm, _⟩ := exists_of_mem_entries _ _ _ he
    obtain ⟨name', t', more', _, ht', hm', _⟩ := exists_of_mem_entriesOf _ _ _ he'
    rw [hm, hm', List.append_assoc, List.append_cancel_left_eq] at hee
    have hname := (List.cons.inj hee).1
    exact hn.1 (List.mem_map.mpr ⟨_, ht', hname⟩)

end

structure Enumerates (t : Tree) (depth : ℕ) (es : List Entry) : Prop where
  nodup : (es.map (·.names)).Nodup
  mem_iff : ∀ e, e ∈ es ↔
    e.names.length ≤ depth ∧ ∃ u, At t e.names u ∧ e.isDirectory = u.isDirectory

lemma Enumerates.perm {t : Tree} {depth : ℕ} {es es' : List Entry} (h : t.Enumerates depth es)
    (h' : t.Enumerates depth es') : es.Perm es' :=
  (List.perm_ext_iff_of_nodup h.nodup.of_map h'.nodup.of_map).mpr fun e =>
    (h.mem_iff e).trans (h'.mem_iff e).symm

lemma enumerates_entries {t : Tree} (ht : Legal t)
    (hopen : ∀ names es access, At t names (directory es access) → opens names) (depth : ℕ) :
    t.Enumerates depth (entries opens depth [] t) := by
  refine ⟨nodup_entries depth [] t ht, fun e => ⟨fun he => ?_, fun ⟨hl, u, hu, hd⟩ => ?_⟩⟩
  · obtain ⟨more, u, hn, hl, hu, hd⟩ := exists_of_mem_entries depth [] t he
    rw [List.nil_append] at hn
    rw [hn]
    exact ⟨hl, u, hu, hd⟩
  · have hmem : ⟨[] ++ e.names, u.isDirectory⟩ ∈ entries opens depth [] t :=
      mem_entries hu hl fun before es access h => hopen before es access h
    rwa [List.nil_append, ← hd] at hmem

lemma sortedEntries_eq (es : List (Bytes × Tree)) :
    sortedEntries es = es.map fun e => (e.1, e.2.sorted) := by
  induction es with
  | nil => rfl
  | cons e es ih => rw [sortedEntries, ih, List.map_cons]

lemma sorted_directory (es : List (Bytes × Tree)) (access : Access) :
    ∃ es', (directory es access).sorted = directory es' access ∧
      es'.Perm (es.map fun e => (e.1, e.2.sorted)) := by
  refine ⟨(sortedEntries es).mergeSort comesBefore, by rw [sorted], ?_⟩
  rw [← sortedEntries_eq]
  exact List.mergeSort_perm _ _

lemma isDirectory_sorted (t : Tree) : t.sorted.isDirectory = t.isDirectory := by
  cases t <;> simp [sorted, isDirectory]

lemma Legal.sorted {t : Tree} (h : Legal t) : Legal t.sorted := by
  induction h with
  | file content isExecutable isReadable =>
    rw [Tree.sorted]
    exact .file content isExecutable isReadable
  | link target =>
    rw [Tree.sorted]
    exact .link target
  | @directory es access hn hnames hes ih =>
    obtain ⟨es', hs, hp⟩ := sorted_directory es access
    rw [hs]
    refine .directory ?_ ?_ ?_
    · rw [(hp.map (·.1)).nodup_iff, List.map_map]
      exact hn
    · intro e he
      obtain ⟨e', he', rfl⟩ := List.mem_map.mp (hp.mem_iff.mp he)
      exact hnames e' he'
    · intro e he
      obtain ⟨e', he', rfl⟩ := List.mem_map.mp (hp.mem_iff.mp he)
      exact ih e' he'

lemma at_sorted {t u : Tree} {names : List Bytes} (h : At t names u) :
    At t.sorted names u.sorted := by
  induction h with
  | here => exact .here _
  | @inside es access name t u names ht hu ih =>
    obtain ⟨es', hs, hp⟩ := sorted_directory es access
    rw [hs]
    exact .inside (hp.mem_iff.mpr (List.mem_map.mpr ⟨_, ht, rfl⟩)) ih

lemma exists_of_at_sorted {t u : Tree} {names : List Bytes} (h : At t.sorted names u) :
    ∃ v, At t names v ∧ u = v.sorted := by
  generalize hs : t.sorted = s at h
  induction h generalizing t with
  | here => exact ⟨t, .here _, hs.symm⟩
  | @inside es access name t' u names ht hu ih =>
    cases t with
    | file | link => simp [sorted] at hs
    | directory es₀ access₀ =>
      obtain ⟨es', hs', hp⟩ := sorted_directory es₀ access₀
      rw [hs'] at hs
      cases hs
      obtain ⟨e, he, hp⟩ := List.mem_map.mp (hp.mem_iff.mp ht)
      obtain ⟨rfl, rfl⟩ := Prod.mk.inj hp
      obtain ⟨v, hv, rfl⟩ := ih rfl
      exact ⟨v, .inside he hv, rfl⟩

lemma IsOpen.sorted {t : Tree} (h : t.IsOpen) : t.sorted.IsOpen := by
  intro names es access hu
  obtain ⟨v, hv, hsorted⟩ := exists_of_at_sorted hu
  cases v with
  | file | link => simp [Tree.sorted] at hsorted
  | directory es' access' =>
    rw [Tree.sorted] at hsorted
    cases hsorted
    exact h names es' access hv

end PathSieve.Tree
