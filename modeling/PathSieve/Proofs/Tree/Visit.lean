import PathSieve.Proofs.Tree

/-! Visits. A walk visits the entries in their order, each at the path that its names spell behind
the root. What leads from the root to such a path are the names alone, so that no entry is ever told
by a way out of the root. -/

namespace PathSieve.Tree

open PathSieve.Path (IsName StaysBelow spell)

variable {fits : Bytes → Bool} {opens : List Bytes → Bool} {root : Bytes}

lemma refusal?_eq_none_iff {fits isReached : Bool} {access : Access} :
    refusal? fits isReached access = none ↔ (fits && isReached && access.canList) = true := by
  rw [refusal?]
  cases fits <;> cases isReached <;> cases access.canList <;> simp

mutual

lemma map_visits (isReached : Bool) (depth : ℕ) (names : List Bytes) (t : Tree) (ht : t.Legal)
    (hopens : ∀ more es access, t.At more (directory es access) →
      opens (names ++ more) =
        (fits (spell root (names ++ more)) && isReached && t.canListAt more)) :
    (t.visits fits isReached depth (spell root names)).map (fun v => (v.path, v.isDirectory)) =
      (t.entries opens depth names).map fun e => (spell root e.names, e.isDirectory) := by
  cases t with
  | file | link => rfl
  | directory es access =>
    have hopen := hopens [] es access (.here _)
    rw [List.append_nil, canListAt] at hopen
    rw [visits, entries, List.map_cons]
    by_cases hdepth : depth = 0
    · rw [if_pos hdepth, if_neg fun h => h.1 hdepth]
      rfl
    rw [if_neg hdepth]
    cases hrefusal : refusal? (fits (spell root names)) isReached access with
    | none =>
      rw [if_pos ⟨hdepth, hopen.trans (refusal?_eq_none_iff.mp hrefusal)⟩, List.map_cons]
      refine congrArg _ (map_visitsOf _ (depth - 1) names es (fun e he => (ht.child he).2) ?_)
      intro name t hmem more es' access' hu
      rw [hopens _ es' access' (.inside hmem hu), canListAt_cons ht hmem]
      simp only [Bool.and_assoc]
    | some why =>
      rw [if_neg fun h => ?_]
      · rfl
      · rw [refusal?_eq_none_iff.mpr (hopen.symm.trans h.2)] at hrefusal
        cases hrefusal

lemma map_visitsOf (isReached : Bool) (depth : ℕ) (names : List Bytes) (es : List (Bytes × Tree))
    (hes : ∀ e ∈ es, e.2.Legal)
    (hopens : ∀ name t, (name, t) ∈ es → ∀ more es' access, t.At more (directory es' access) →
      opens (names ++ name :: more) =
        (fits (spell root (names ++ name :: more)) && isReached && t.canListAt more)) :
    (visitsOf fits isReached depth (spell root names) es).map
        (fun v => (v.path, v.isDirectory)) =
      (entriesOf opens depth names es).map fun e => (spell root e.names, e.isDirectory) := by
  match es with
  | [] => rfl
  | (name, t) :: es =>
    rw [List.forall_mem_cons] at hes
    rw [visitsOf, entriesOf, List.map_append, List.map_append, ← Path.spell_concat,
      map_visits isReached depth (names ++ [name]) t hes.1,
      map_visitsOf isReached depth names es hes.2]
    · exact fun name t ht => hopens name t (List.mem_cons_of_mem _ ht)
    · intro more es' access hu
      rw [List.append_assoc]
      exact hopens name t List.mem_cons_self more es' access hu

end

def canOpen (fits : Bytes → Bool) (isReached : Bool) (root : Bytes) (t : Tree)
    (names : List Bytes) : Bool :=
  fits (spell root names) && isReached && t.canListAt names

lemma map_visits_root {t : Tree} (ht : t.Legal) (isReached : Bool) (depth : ℕ) :
    (t.visits fits isReached depth root).map (fun v => (v.path, v.isDirectory)) =
      (t.entries (canOpen fits isReached root t) depth []).map
        fun e => (spell root e.names, e.isDirectory) :=
  map_visits isReached depth [] t ht fun _ _ _ _ => rfl

lemma exists_of_mem_visits {t : Tree} (ht : t.Legal) {isReached : Bool} {depth : ℕ} {visit : Visit}
    (h : visit ∈ t.visits fits isReached depth root) :
    ∃ names u, t.At names u ∧ names.length ≤ depth ∧ visit.path = spell root names ∧
      visit.isDirectory = u.isDirectory := by
  have hmem := List.mem_map_of_mem (f := fun v => (v.path, v.isDirectory)) h
  rw [map_visits_root ht] at hmem
  obtain ⟨e, he, heq⟩ := List.mem_map.mp hmem
  obtain ⟨hpath, hdir⟩ := Prod.mk.inj heq
  obtain ⟨names, u, hnames, hlength, hu, hkind⟩ := exists_of_mem_entries depth [] t he
  rw [List.nil_append] at hnames
  exact ⟨names, u, hu, hlength, hnames ▸ hpath.symm, hdir.symm.trans hkind⟩

theorem staysBelow_visits (root : Bytes) :
    (∀ names : List Bytes, (∀ name ∈ names, IsName name) →
      StaysBelow root (Path.join root (Text.join [Path.slash] names)) names ∧
        StaysBelow root (spell root names) names) ∧
    ∀ t : Tree, t.Legal → ∀ (fits : Bytes → Bool) (isReached : Bool) (depth : ℕ),
      ∀ visit ∈ t.visits fits isReached depth root, ∃ names u, t.At names u ∧
        names.length ≤ depth ∧ visit.path = spell root names ∧
          StaysBelow root visit.path names := by
  refine ⟨fun names h => ⟨Path.staysBelow_join root h, Path.staysBelow_spell root h⟩, ?_⟩
  intro t ht fits isReached depth visit hvisit
  obtain ⟨names, u, hu, hlength, hpath, -⟩ := exists_of_mem_visits ht hvisit
  exact ⟨names, u, hu, hlength, hpath, hpath ▸ Path.staysBelow_spell root (ht.at hu).1⟩

def dottedTree : Tree :=
  .directory [(Utf8.encode "...".toList,
    .directory [([0xFF], .link [Path.dot, Path.dot])] .free)] .free

lemma legal_dotted : dottedTree.Legal :=
  .singleton (by decide) (.singleton (by decide) (.link _) _) _

def windingRoot : Bytes := Utf8.encode "./..//a/.".toList

theorem staysBelow_visits_winding :
    ((∀ name ∈ [Utf8.encode "...".toList, [0xFF]], IsName name) ∧
      StaysBelow windingRoot (Utf8.encode "./..//a/./.../".toList ++ [0xFF])
        [Utf8.encode "...".toList, [0xFF]]) ∧
    dottedTree.Legal ∧
      ⟨Utf8.encode "./..//a/./.../".toList ++ [0xFF], false, none⟩ ∈
        dottedTree.visits (fun _ => true) true 2 windingRoot ∧
      ∃ names u, dottedTree.At names u ∧ names.length ≤ 2 ∧
        Utf8.encode "./..//a/./.../".toList ++ [0xFF] = spell windingRoot names ∧
        StaysBelow windingRoot (Utf8.encode "./..//a/./.../".toList ++ [0xFF]) names := by
  have hnames : ∀ name ∈ [Utf8.encode "...".toList, [0xFF]], IsName name := by decide
  have hvisit : ⟨Utf8.encode "./..//a/./.../".toList ++ [0xFF], false, none⟩ ∈
      dottedTree.visits (fun _ => true) true 2 windingRoot := by decide
  obtain ⟨hjoined, hvisits⟩ := staysBelow_visits windingRoot
  exact ⟨⟨hnames, (hjoined _ hnames).1⟩, legal_dotted, hvisit,
    hvisits dottedTree legal_dotted _ _ 2 _ hvisit⟩

end PathSieve.Tree
