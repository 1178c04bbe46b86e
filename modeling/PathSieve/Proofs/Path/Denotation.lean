import PathSieve.Proofs.Path

/-! What paths denote. A path is walked component by component: names go down, a `..` takes back the
name before it. Joined paths are walked one after the other. -/

namespace PathSieve.Path

def IsStep (c : Component) : Prop := c = .parent ∨ ∃ name, IsName name ∧ c = .name name

def start (path : Bytes) : List Component := if isAbsolute path then [.root] else []

section Components

lemma of_mem_pieces {path : Bytes} {c : Component} (h : c ∈ pieces path) :
    c = .current ∨ IsStep c := by
  obtain ⟨piece, hpiece, rfl⟩ := List.mem_map.mp h
  obtain ⟨hsplit, hne⟩ := List.mem_filter.mp hpiece
  rw [Component.ofPiece]
  split_ifs with hdot hdots
  · exact Or.inl rfl
  · exact Or.inr (Or.inl rfl)
  · refine Or.inr (Or.inr ⟨piece, ⟨by simpa using hne, fun hmem => ?_, hdot, hdots⟩, rfl⟩)
    exact Text.not_of_mem_splitOn hsplit slash hmem (beq_self_eq_true slash)

lemma of_mem_inner {path : Bytes} {c : Component}
    (h : c ∈ (pieces path).filter (· != .current)) : IsStep c := by
  obtain ⟨hmem, hne⟩ := List.mem_filter.mp h
  exact (of_mem_pieces hmem).resolve_left (by simpa using hne)

lemma components_of_absolute {path : Bytes} (h : isAbsolute path = true) :
    ∃ cs, components path = .root :: cs ∧ ∀ c ∈ cs, IsStep c := by
  rw [components, if_pos h]
  exact ⟨_, rfl, fun c => of_mem_inner⟩

lemma components_of_relative {path : Bytes} (h : isAbsolute path = false) :
    ∃ cs, (components path = cs ∨ components path = .current :: cs) ∧ ∀ c ∈ cs, IsStep c := by
  rw [components, if_neg (Bool.eq_false_iff.mp h)]
  have hinner : ∀ c ∈ (pieces path).filter (· != .current), IsStep c := fun c => of_mem_inner
  split
  · rename_i cs hpieces
    rw [hpieces] at hinner
    exact ⟨_, Or.inr rfl, hinner⟩
  · exact ⟨_, Or.inl rfl, hinner⟩

end Components

section Walks

lemma descend_name (walked : List Component) (name : Bytes) :
    descend walked (.name name) = .name name :: walked := by
  cases walked with
  | nil => rfl
  | cons c cs => cases c <;> cases cs <;> rfl

lemma descend_current (walked : List Component) : descend walked .current = walked := by
  cases walked with
  | nil => rfl
  | cons c cs => cases c <;> cases cs <;> rfl

lemma descend_root (walked : List Component) : descend walked .root = walked := by
  cases walked with
  | nil => rfl
  | cons c cs => cases c <;> cases cs <;> rfl

lemma foldl_inner (cs walked : List Component) :
    (cs.filter (· != .current)).foldl descend walked = cs.foldl descend walked := by
  induction cs generalizing walked with
  | nil => rfl
  | cons c cs ih =>
    by_cases hc : c = .current
    · rw [hc, List.foldl_cons, descend_current, ← ih]
      rfl
    · rw [List.filter_cons_of_pos (by simpa using hc), List.foldl_cons, ih]
      rfl

lemma foldl_components (path : Bytes) (walked : List Component) :
    (components path).foldl descend walked = (pieces path).foldl descend walked := by
  rw [components]
  split_ifs
  · rw [List.foldl_cons, descend_root, foldl_inner]
  · split
    · rename_i cs hpieces
      rw [hpieces, List.foldl_cons, List.foldl_cons, foldl_inner]
    · exact foldl_inner _ _

lemma denotation_eq (path : Bytes) : denotation path = (pieces path).foldl descend (start path) :=
  foldl_components path _

lemma foldl_names (names : List Bytes) (walked : List Component) :
    (names.map .name).foldl descend walked = names.reverse.map .name ++ walked := by
  induction names generalizing walked with
  | nil => rfl
  | cons name names ih =>
    rw [List.map_cons, List.foldl_cons, descend_name, ih]
    simp

lemma foldl_parents (names : List Bytes) (walked : List Component) :
    (List.replicate names.length .parent).foldl descend (names.map .name ++ walked) = walked := by
  induction names with
  | nil => rfl
  | cons name names ih => exact ih

-- As many `..` as names lead back to where the names started.
lemma foldl_names_parents (names : List Bytes) (walked : List Component) :
    (List.replicate names.length .parent).foldl descend
      ((names.map .name).foldl descend walked) = walked := by
  rw [foldl_names, ← List.length_reverse, foldl_parents]

lemma parent_mem_descend {walked : List Component} (h : .parent ∈ walked) (c : Component) :
    .parent ∈ descend walked c := by
  cases walked with
  | nil => cases h
  | cons first walked =>
    cases c with
    | root => rwa [descend_root]
    | current => rwa [descend_current]
    | name name =>
      rw [descend_name]
      exact List.mem_cons_of_mem _ h
    | parent =>
      cases first with
      | name name => exact (List.mem_cons.mp h).resolve_left (by simp)
      | current | parent => exact List.mem_cons_self
      | root =>
        cases walked with
        | nil => simp at h
        | cons second walked => exact List.mem_cons_self

lemma parent_mem_foldl {walked : List Component} (h : .parent ∈ walked) (cs : List Component) :
    .parent ∈ cs.foldl descend walked := by
  induction cs generalizing walked with
  | nil => exact h
  | cons c cs ih => exact ih (parent_mem_descend h c)

-- Steps that climb above where they start forget the name that they start from; the others leave
-- what is below them alone.
lemma climbs_or_stays {cs : List Component} (h : ∀ c ∈ cs, IsStep c) (names : List Bytes) :
    (.parent ∈ cs.foldl descend (names.map .name) ∧ ∃ walked, ∀ name,
      cs.foldl descend (names.map .name ++ [.name name]) = walked) ∨
    (.parent ∉ cs.foldl descend (names.map .name) ∧ ∀ walked,
      cs.foldl descend (names.map .name ++ walked) =
        cs.foldl descend (names.map .name) ++ walked) := by
  induction cs generalizing names with
  | nil => exact Or.inr ⟨by simp, fun _ => rfl⟩
  | cons c cs ih =>
    obtain ⟨hc, hcs⟩ := List.forall_mem_cons.mp h
    rcases hc with rfl | ⟨name, -, rfl⟩
    · cases names with
      | nil =>
        exact Or.inl ⟨parent_mem_foldl List.mem_cons_self cs, cs.foldl descend [], fun _ => rfl⟩
      | cons name names => exact ih hcs names
    · simp only [List.foldl_cons, descend_name]
      exact ih hcs (name :: names)

lemma foldl_name_inj {cs : List Component} (h : ∀ c ∈ cs, IsStep c) {a b : Bytes} :
    cs.foldl descend [.name a] = cs.foldl descend [.name b] ↔
      a = b ∨ .parent ∈ cs.foldl descend [] := by
  rcases climbs_or_stays h [] with ⟨hclimbs, walked, hwalked⟩ | ⟨hstays, hbelow⟩
  · exact iff_of_true ((hwalked a).trans (hwalked b).symm) (Or.inr hclimbs)
  · have hcut : ∀ name, cs.foldl descend [.name name] = cs.foldl descend [] ++ [.name name] :=
      fun name => hbelow [.name name]
    rw [hcut, hcut, List.append_cancel_left_eq, List.singleton_inj, Component.name.injEq]
    exact (or_iff_left hstays).symm

end Walks

section Joins

variable {c : Component} {cs : List Component}

lemma pieces_spelling (h : c = .current ∨ IsStep c) : pieces c.spelling = [c] := by
  rcases h with rfl | rfl | ⟨name, hname, rfl⟩
  · decide
  · decide
  · exact hname.pieces

lemma not_isAbsolute_spelling (h : c = .current ∨ IsStep c) : isAbsolute c.spelling = false := by
  rcases h with rfl | rfl | ⟨name, hname, rfl⟩
  · rfl
  · rfl
  · exact hname.not_isAbsolute

lemma assemble_concat (cs : List Component) (c : Component) :
    assemble (cs ++ [c]) = join (assemble cs) c.spelling := by
  rw [assemble, List.foldl_append]
  rfl

lemma pieces_assemble (h : ∀ c ∈ cs, c = .current ∨ IsStep c) :
    pieces (assemble cs) = cs ∧ isAbsolute (assemble cs) = false := by
  induction cs using List.reverseRecOn with
  | nil => exact ⟨rfl, rfl⟩
  | append_singleton cs c ih =>
    obtain ⟨hpieces, habsolute⟩ := ih fun c' hc' => h c' (List.mem_append_left _ hc')
    have hc : c = .current ∨ IsStep c := h c (by simp)
    have hspelling := not_isAbsolute_spelling hc
    rw [assemble_concat, pieces_join hspelling, isAbsolute_join hspelling, pieces_spelling hc,
      hpieces]
    exact ⟨rfl, habsolute⟩

lemma denotation_join_assemble (base : Bytes) (h : ∀ c ∈ cs, c = .current ∨ IsStep c) :
    denotation (join base (assemble cs)) = cs.foldl descend ( denotation base) := by
  obtain ⟨hpieces, habsolute⟩ := pieces_assemble h
  rw [denotation_eq, denotation_eq, pieces_join habsolute, hpieces, start, start,
    isAbsolute_join habsolute, List.foldl_append]

end Joins

end PathSieve.Path
