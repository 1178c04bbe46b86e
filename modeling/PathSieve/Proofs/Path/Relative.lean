import PathSieve.Proofs.Path.Denotation

/-! Relative paths. Behind the base, the relative path leads to what the path denotes, unless the
base starts with a `.` that the path lacks: the `.` then takes the place of the first component. -/

namespace PathSieve.Path

/-- The base starts with a `.` that the path lacks, and the path is empty, or its first name is not
the one that the base goes on with and no `..` takes it back. -/
def strays (path base : Bytes) : Bool :=
  match components base, components path with
  | .current :: _, [] => true
  | .current :: .name b :: _, .name a :: as => a != b && !(as.foldl descend []).contains .parent
  | _, _ => false

variable {path base : Bytes} {as cs : List Component}

lemma exists_names (h : ∀ c ∈ cs, IsStep c) (hnone : .parent ∉ cs) :
    ∃ names : List Bytes, cs = names.map .name := by
  induction cs with
  | nil => exact ⟨[], rfl⟩
  | cons c cs ih =>
    obtain ⟨hc, hcs⟩ := List.forall_mem_cons.mp h
    obtain ⟨hne, hrest⟩ := not_or.mp (mt List.mem_cons.mpr hnone)
    obtain ⟨name, -, rfl⟩ := hc.resolve_left (Ne.symm hne)
    obtain ⟨names, rfl⟩ := ih hcs hrest
    exact ⟨name :: names, rfl⟩

section Steps

lemma steps?_up (moved : Bool) (names : List Bytes) :
    steps? moved [] (names.map .name) = some (List.replicate names.length .parent) := by
  induction names generalizing moved with
  | nil => rfl
  | cons name names ih =>
    rw [List.map_cons, steps?, ih]
    rfl

lemma steps?_apart {moved : Bool} {names : List Bytes}
    (h : moved = true ∨ as.head? ≠ (names.map Component.name).head?) :
    steps? moved as (names.map .name) = some (List.replicate names.length .parent ++ as) := by
  cases as with
  | nil => rw [steps?_up, List.append_nil]
  | cons a as =>
    cases names with
    | nil => rfl
    | cons name names =>
      have hshared : (!moved && a == .name name) = false := by
        rcases h with rfl | h
        · rfl
        · have ha : a ≠ .name name := fun he => h (congrArg some he)
          simp [ha]
      have hparents : (names.map Component.name).map (fun _ => Component.parent) =
          List.replicate names.length .parent := by
        rw [List.map_const', List.length_map]
      rw [List.map_cons, steps?, hshared, if_neg Bool.false_ne_true, if_neg (by simp),
        if_neg (by simp), hparents]
      rfl

lemma foldl_apart (names : List Bytes) (as walked : List Component) :
    (List.replicate names.length Component.parent ++ as).foldl descend
      ((names.map Component.name).foldl descend walked) = as.foldl descend walked := by
  rw [List.foldl_append, foldl_names_parents]

lemma mem_apart {names : List Bytes} {c : Component}
    (h : c ∈ List.replicate names.length Component.parent ++ as) : c = .parent ∨ c ∈ as :=
  (List.mem_append.mp h).imp_left List.eq_of_mem_replicate

lemma exists_steps (names : List Bytes) (as : List Component) :
    ∃ cs, steps? false as (names.map .name) = some cs ∧ (∀ c ∈ cs, c = .parent ∨ c ∈ as) ∧
      ∀ walked, cs.foldl descend ((names.map .name).foldl descend walked) =
        as.foldl descend walked := by
  induction names generalizing as with
  | nil => exact ⟨as, by cases as <;> rfl, fun _ => Or.inr, fun _ => rfl⟩
  | cons name names ih =>
    by_cases hhead : as.head? = some (.name name)
    · obtain ⟨as, rfl⟩ := List.head?_eq_some_iff.mp hhead
      obtain ⟨cs, hsteps, hmem, hfold⟩ := ih as
      refine ⟨cs, ?_, fun c hc => (hmem c hc).imp_right (List.mem_cons_of_mem _), fun walked => ?_⟩
      · rw [List.map_cons, steps?, ← hsteps]
        simp
      · exact hfold (descend walked (.name name))
    · exact ⟨_, steps?_apart (Or.inr hhead), fun c => mem_apart, foldl_apart (name :: names) as⟩

lemma steps?_shared (shared as bs : List Component) :
    steps? false (shared ++ as) (shared ++ bs) = steps? false as bs := by
  induction shared with
  | nil => rfl
  | cons c shared ih => simpa [steps?] using ih

-- A `.` of the base takes the place of the first component, which is not shared any more.
lemma steps?_stray {a : Component} (ha : a ≠ .current) (as : List Component) (names : List Bytes) :
    steps? false (a :: as) (.current :: names.map .name) =
      some (a :: (List.replicate names.length .parent ++ as)) := by
  rw [steps?, if_neg (by simpa using ha), if_pos rfl, steps?_apart (Or.inl rfl)]
  rfl

lemma steps?_astray (names : List Bytes) :
    steps? false [] (.current :: names.map .name) =
      some (List.replicate (names.length + 1) .parent) := by
  rw [steps?, steps?_up]
  rfl

end Steps

section Stray

lemma cons_replicate_parent (n : ℕ) (as : List Component) :
    Component.parent :: (List.replicate n .parent ++ as) =
      List.replicate n .parent ++ .parent :: as := by
  rw [← List.cons_append, ← List.replicate_succ, List.replicate_succ', List.append_assoc]
  rfl

-- The first name of the path is walked behind the base and the steps up take it back, so the
-- first name of the base stays in its place.
lemma foldl_stray (a b : Bytes) (names : List Bytes) (as : List Component) :
    (Component.name a :: (List.replicate (b :: names).length .parent ++ as)).foldl descend
      (((b :: names).map Component.name).foldl descend []) = as.foldl descend [.name b] := by
  have hwalked : descend (((b :: names).map Component.name).foldl descend []) (.name a) =
      ((names ++ [a]).map Component.name).foldl descend [.name b] := by
    rw [List.map_append, List.foldl_append]
    rfl
  have hlength : (b :: names).length = (names ++ [a]).length := by simp
  rw [List.foldl_cons, hwalked, hlength, foldl_apart]

end Stray

lemma denotation_join_relative (habsolute : isAbsolute path = isAbsolute base)
    (h : steps? false (components path) (components base) = some cs)
    (hcs : ∀ c ∈ cs, c = .current ∨ IsStep c) :
    denotation (join base (relative path base)) = cs.foldl descend ( denotation base) := by
  rw [relative, habsolute, bne_self_eq_false, if_neg Bool.false_ne_true, h]
  exact denotation_join_assemble base hcs

section Relative

variable {names : List Bytes}

lemma isStep_of_apart (has : ∀ c ∈ as, c = .current ∨ IsStep c)
    (h : ∀ c ∈ cs, c = .parent ∨ c ∈ as) : ∀ c ∈ cs, c = .current ∨ IsStep c :=
  fun c hc => (h c hc).elim (fun hparent => Or.inr (Or.inl hparent)) (has c)

lemma denotation_of_shared (shared : List Component) (habsolute : isAbsolute path = isAbsolute base)
    (hpath : components path = shared ++ as) (hbase : components base = shared ++ names.map .name)
    (has : ∀ c ∈ as, c = .current ∨ IsStep c) :
    denotation (join base (relative path base)) = denotation path := by
  obtain ⟨cs, hsteps, hmem, hfold⟩ := exists_steps names as
  have hrelative : steps? false (components path) (components base) = some cs := by
    rw [hpath, hbase, steps?_shared, hsteps]
  rw [denotation_join_relative habsolute hrelative (isStep_of_apart has hmem), denotation,
    denotation, habsolute, hpath, hbase, List.foldl_append, List.foldl_append]
  exact hfold _

lemma denotation_of_absolute (habsolute : isAbsolute path = true) (hbase : isAbsolute base = true)
    (hnone : .parent ∉ components base) :
    denotation (join base (relative path base)) = denotation path ↔ strays path base = false := by
  obtain ⟨as, hpath, has⟩ := components_of_absolute habsolute
  obtain ⟨bs, hcomponents, hbs⟩ := components_of_absolute hbase
  obtain ⟨names, rfl⟩ := exists_names hbs fun h =>
    hnone (hcomponents ▸ List.mem_cons_of_mem _ h)
  refine iff_of_true (denotation_of_shared [.root] (habsolute.trans hbase.symm) hpath hcomponents
    fun c hc => Or.inr (has c hc)) ?_
  rw [strays, hcomponents]

lemma denotation_relative (h : isAbsolute path = false) :
    denotation path = (components path).foldl descend [] := by
  unfold denotation
  rw [h, if_neg Bool.false_ne_true]

lemma denotation_of_names (hpath : isAbsolute path = false) (hbase : isAbsolute base = false)
    (hcomponents : components base = names.map .name) :
    denotation (join base (relative path base)) = denotation path ↔ strays path base = false := by
  have hpieces : ∀ c ∈ components path, c = .current ∨ IsStep c := by
    obtain ⟨as, has | has, hall⟩ := components_of_relative hpath
    · exact fun c hc => Or.inr (hall c (has ▸ hc))
    · rw [has]
      exact List.forall_mem_cons.mpr ⟨Or.inl rfl, fun c hc => Or.inr (hall c hc)⟩
  refine iff_of_true (denotation_of_shared [] (hpath.trans hbase.symm) rfl hcomponents hpieces) ?_
  rw [strays, hcomponents]
  cases names <;> rfl

lemma denotation_of_marked (hpath : isAbsolute path = false) (hbase : isAbsolute base = false)
    (hcomponents : components base = .current :: names.map .name)
    (has : components path = .current :: as) (hall : ∀ c ∈ as, IsStep c) :
    denotation (join base (relative path base)) = denotation path ↔ strays path base = false := by
  refine iff_of_true (denotation_of_shared [.current] (hpath.trans hbase.symm) has hcomponents
    fun c hc => Or.inr (hall c hc)) ?_
  rw [strays, has, hcomponents]

section Unmarked

variable (hpath : isAbsolute path = false) (hbase : isAbsolute base = false)
  (hcomponents : components base = .current :: names.map .name)

include hpath hbase hcomponents

lemma denotation_of_empty (hempty : components path = []) :
    denotation (join base (relative path base)) = [.parent] := by
  have hsteps : steps? false (components path) (components base) =
      some (List.replicate (names.length + 1) .parent) := by
    rw [hempty, hcomponents, steps?_astray]
  have hcs : ∀ c ∈ List.replicate (names.length + 1) Component.parent,
      c = .current ∨ IsStep c := fun c hc => Or.inr (Or.inl (List.eq_of_mem_replicate hc))
  rw [denotation_join_relative (hpath.trans hbase.symm) hsteps hcs, denotation_relative hbase,
    hcomponents, List.replicate_succ']
  exact foldl_apart names [.parent] []

lemma denotation_of_stray {a : Component} (has : components path = a :: as)
    (hall : ∀ c ∈ a :: as, IsStep c) :
    denotation (join base (relative path base)) =
      (a :: (List.replicate names.length .parent ++ as)).foldl descend
        ((names.map .name).foldl descend []) := by
  obtain ⟨ha, hall⟩ := List.forall_mem_cons.mp hall
  have hne : a ≠ .current := by
    rintro rfl
    rcases ha with ha | ⟨name, -, ha⟩ <;> cases ha
  have hsteps : steps? false (components path) (components base) =
      some (a :: (List.replicate names.length .parent ++ as)) := by
    rw [has, hcomponents, steps?_stray hne]
  have hcs : ∀ c ∈ a :: (List.replicate names.length Component.parent ++ as),
      c = .current ∨ IsStep c :=
    List.forall_mem_cons.mpr
      ⟨Or.inr ha, isStep_of_apart (fun c hc => Or.inr (hall c hc)) fun c => mem_apart⟩
  rw [denotation_join_relative (hpath.trans hbase.symm) hsteps hcs, denotation_relative hbase,
    hcomponents]
  rfl

lemma denotation_of_unmarked (hall : ∀ c ∈ components path, IsStep c) :
    denotation (join base (relative path base)) = denotation path ↔ strays path base = false := by
  cases has : components path with
  | nil =>
    have hstrays : strays path base = true := by rw [strays, hcomponents, has]
    rw [denotation_of_empty hpath hbase hcomponents has, denotation_relative hpath, has, hstrays]
    exact iff_of_false (List.cons_ne_nil _ _) (by simp)
  | cons a as =>
    rw [has] at hall
    rw [denotation_of_stray hpath hbase hcomponents has hall, denotation_relative hpath, has]
    obtain ⟨ha, hrest⟩ := List.forall_mem_cons.mp hall
    rcases ha with rfl | ⟨first, -, rfl⟩
    · have hstrays : strays path base = false := by rw [strays, hcomponents, has]
      rw [cons_replicate_parent, foldl_apart]
      exact iff_of_true rfl hstrays
    · cases names with
      | nil =>
        have hstrays : strays path base = false := by
          rw [strays, hcomponents, has]
          rfl
        exact iff_of_true rfl hstrays
      | cons b names =>
        have hstrays : strays path base =
            (first != b && !(as.foldl descend []).contains .parent) := by
          rw [strays, hcomponents, has]
          rfl
        rw [foldl_stray, hstrays, Bool.and_eq_false_iff, bne_eq_false_iff_eq, Bool.not_eq_false',
          List.contains_iff_mem, eq_comm (a := first)]
        exact foldl_name_inj hrest

end Unmarked

end Relative

theorem denotation_join_relative_iff (habsolute : isAbsolute path = isAbsolute base)
    (hbase : .parent ∉ components base) :
    denotation (join base (relative path base)) = denotation path ↔ strays path base = false := by
  cases hrelative : isAbsolute base with
  | true => exact denotation_of_absolute (habsolute.trans hrelative) hrelative hbase
  | false =>
    rw [hrelative] at habsolute
    obtain ⟨as, has, hall⟩ := components_of_relative habsolute
    obtain ⟨bs, hbs | hbs, hnames⟩ := components_of_relative hrelative
    · obtain ⟨names, rfl⟩ := exists_names hnames (hbs ▸ hbase)
      exact denotation_of_names habsolute hrelative hbs
    · -- the base starts with a `.`, so it matters whether the path shares it
      obtain ⟨names, rfl⟩ := exists_names hnames fun h =>
        hbase (hbs ▸ List.mem_cons_of_mem _ h)
      rcases has with has | has
      · exact denotation_of_unmarked habsolute hrelative hbs (has ▸ hall)
      · exact denotation_of_marked habsolute hrelative hbs has hall

theorem denotation_join_relative_iff_climbing :
    (isAbsolute (Utf8.encode "b/../c".toList) = isAbsolute (Utf8.encode ".//a/./d/".toList) ∧
      .parent ∉ components (Utf8.encode ".//a/./d/".toList)) ∧
      denotation (join (Utf8.encode ".//a/./d/".toList)
        (relative (Utf8.encode "b/../c".toList) (Utf8.encode ".//a/./d/".toList))) =
          denotation (Utf8.encode "b/../c".toList) := by
  have habsolute : isAbsolute (Utf8.encode "b/../c".toList) =
      isAbsolute (Utf8.encode ".//a/./d/".toList) := by decide
  have hbase : .parent ∉ components (Utf8.encode ".//a/./d/".toList) := by decide
  exact ⟨⟨habsolute, hbase⟩, (denotation_join_relative_iff habsolute hbase).mpr (by decide)⟩

theorem not_denotation_join_relative :
    ¬ ∀ path base : Bytes, isAbsolute path = isAbsolute base → .parent ∉ components base →
      denotation (join base (relative path base)) = denotation path := by
  intro h
  -- behind `./a`, the path `b/../c` that is given for `b/c` leads to `a/c`
  exact absurd (h (Utf8.encode "b/c".toList) (Utf8.encode "./a".toList) (by decide) (by decide))
    (by decide)

end PathSieve.Path
