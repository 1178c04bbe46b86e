import PathSieve.Proofs.Listing.Entries

namespace PathSieve.Listing.Walk

open PathSieve.Tree (Entry)

variable {root : Bytes}

lemma root_ok {world : World} {place : World.Place} (h : world.find? root = .ok place)
    {es : List (Bytes × Tree)} {access : Access} (hes : place.tree = .directory es access)
    (hlist : access.canList = true) : Listing.root world root = .ok place := by
  rw [Listing.root, h]
  simp [World.Place.access?, hes, hlist]

lemma root_ok_of_isOpen {world : World} {place : World.Place} (h : world.find? root = .ok place)
    (hdir : place.tree.isDirectory) (hopen : place.tree.IsOpen) :
    Listing.root world root = .ok place := by
  obtain ⟨es, access, hes⟩ := Tree.isDirectory_iff.mp hdir
  obtain rfl := hopen [] es access (hes ▸ .here _)
  exact root_ok h hes rfl

lemma of_root_ok {world : World} {place : World.Place} (h : Listing.root world root = .ok place) :
    world.find? root = .ok place ∧ place.tree.isDirectory := by
  rw [Listing.root] at h
  cases hf : world.find? root with
  | error cause => cases cause <;> simp [hf] at h
  | ok found =>
    rw [hf] at h
    cases htree : found.tree with
    | file | link => simp [World.Place.access?, htree] at h
    | directory es access =>
      simp only [World.Place.access?, htree] at h
      split_ifs at h
      cases h
      rw [htree]
      exact ⟨rfl, rfl⟩

lemma value_list {world : World} {place : World.Place} (hroot : Listing.root world root = .ok place)
    (ht : place.tree.Legal) (hin : isInput root = false) (depth : ℕ) (isSorted : Bool) :
    (list world root depth isSorted).value =
      .ok ((reached root depth isSorted place.tree).filterMap entryLine?) := by
  have h : ((walked isSorted place.tree).visits (·.length < World.pathLimit) true depth
      root).filterMap (line? root) =
        (reached root depth isSorted place.tree).filterMap entryLine? :=
    lines_visits depth (legal_walked ht isSorted)
  rw [list, hroot]
  dsimp only
  rw [visits, hin, if_neg Bool.false_ne_true]
  exact congrArg Except.ok h

lemma not_isAbsolute_of_isInput (h : isInput root = true) : Path.isAbsolute root = false := by
  by_contra ha
  rw [Bool.not_eq_false] at ha
  rw [isInput, Path.components, ha, if_pos rfl] at h
  simp at h

lemma value_list_input {world : World} {place : World.Place}
    (hroot : Listing.root world root = .ok place) (hin : isInput root = true) (depth : ℕ)
    (isSorted : Bool) :
    (list world root depth isSorted).value = .ok ["./../<stdin>".toList] := by
  have habs : Path.isAbsolute input = Path.isAbsolute root :=
    (not_isAbsolute_of_isInput hin).symm ▸ rfl
  -- the root has one component, which the path of standard input leaves by one step up
  have hcomponents : Path.components root = [.name (Utf8.encode ['-'])] := beq_iff_eq.mp hin
  have hrel : Path.relative input root = Utf8.encode "../<stdin>".toList := by
    rw [Path.relative, habs, hcomponents, bne_self_eq_false, if_neg Bool.false_ne_true]
    decide
  have hline : line? root ⟨input, false, none⟩ = some "./../<stdin>".toList := by
    rw [line?, relative?, hrel, Utf8.decode?_encode]
    decide
  rw [list, hroot]
  dsimp only
  rw [visits, if_pos hin, List.filterMap_cons, hline, List.filterMap_nil]

/-- The lines are `./` for the root and one for each entry down to the depth whose path is text. -/
def ListsEntries (t : Tree) (depth : ℕ) (result : Except Failure (List Text)) : Prop :=
  ∃ es : List Entry, (es.map (·.names)).Nodup ∧
    (∀ e, e ∈ es ↔ e.names ≠ [] ∧ e.names.length ≤ depth ∧
      ∃ u, t.At e.names u ∧ e.isDirectory = u.isDirectory) ∧
    result = .ok (Listed.mark :: es.filterMap entryLine?)

theorem list_lists_entries {world : World} {root : Bytes} {place : World.Place}
    (hlegal : world.root.Legal) (hroot : world.find? root = .ok place)
    (hdir : place.tree.isDirectory) (hin : isInput root = false)
    (hlimit : WithinLimit root place.tree) (hopen : place.tree.IsOpen) (depth : ℕ)
    (isSorted : Bool) :
    ListsEntries place.tree depth (list world root depth isSorted).value := by
  have ht := World.legal_of_find? hlegal hroot
  have hvalue := value_list (root_ok_of_isOpen hroot hdir hopen) ht hin depth isSorted
  have hnodup := nodup_reached ht root depth isSorted
  obtain ⟨es, hes⟩ := exists_reached hdir root depth isSorted
  rw [hes, List.map_cons, List.nodup_cons] at hnodup
  refine ⟨es, hnodup.2, fun e => ⟨fun he => ?_, fun ⟨hne, hl, he⟩ => ?_⟩, ?_⟩
  · obtain ⟨hl, hu⟩ := of_mem_reached (hes ▸ List.mem_cons_of_mem _ he)
    refine ⟨fun hn => hnodup.1 ?_, hl, hu⟩
    exact List.mem_map.mpr ⟨e, he, hn⟩
  · have hmem := mem_reached isSorted ht hlimit hopen hl he
    rw [hes] at hmem
    rcases List.mem_cons.mp hmem with rfl | hmem
    · exact absurd rfl hne
    · exact hmem
  · have hmark : entryLine? ⟨[], true⟩ = some Listed.mark := by
      simp [entryLine?, entryPath, Text.join, Utf8.decode?, Utf8.scan_nil, Listed.render,
        Listed.clean]
    rw [hvalue, hes, List.filterMap_cons, hmark]

def hyphenTree : Tree := .directory [([0x62], .file [] false true)] .free

def sampleTree : Tree :=
  .directory [([0x61], .file [] false true), ([0x2D], hyphenTree), ([0x63, 0xFF], .link [0x2D])]
    .free

def sample : World := ⟨sampleTree, []⟩

def hyphenPlace : World.Place := (World.Place.top sampleTree).down [0x2D] hyphenTree

lemma legal_hyphen : hyphenTree.Legal := .singleton (by decide) (.file _ _ _) _

lemma legal_sample : sample.root.Legal := by
  refine .directory (by decide) (by decide) ?_
  rintro e he
  simp only [List.mem_cons, List.not_mem_nil, or_false] at he
  rcases he with rfl | rfl | rfl
  · exact .file _ _ _
  · exact legal_hyphen
  · exact .link _

lemma find?_sample : sample.find? [Path.dot] = .ok (.top sampleTree) := World.find?_dot rfl

lemma find?_hyphen : sample.find? [0x2D, Path.slash, Path.dot] = .ok hyphenPlace := by
  have h : sample.find? [0x2D, Path.slash, Path.dot] =
      World.follow sampleTree World.linkLimit (.top sampleTree) [[0x2D], [Path.dot]] := rfl
  rw [h, World.follow_name rfl rfl (by decide) (by decide) rfl (by simp [hyphenTree]),
    World.follow_dot rfl rfl, World.follow]
  rfl

section Directories

variable {es : List (Bytes × Tree)} {access : Access}

lemma of_at_hyphen {names : List Bytes} (h : hyphenTree.At names (.directory es access)) :
    names = [] ∧ access = .free := by
  cases h with
  | here => exact ⟨rfl, rfl⟩
  | inside ht h =>
    obtain ⟨rfl, rfl⟩ := Prod.mk.inj (List.mem_singleton.mp ht)
    cases h

lemma of_at_sample {names : List Bytes} (h : sampleTree.At names (.directory es access)) :
    (names = [] ∨ names = [[0x2D]]) ∧ access = .free := by
  cases h with
  | here => exact ⟨Or.inl rfl, rfl⟩
  | inside ht h =>
    simp only [List.mem_cons, List.not_mem_nil, or_false, Prod.mk.injEq] at ht
    rcases ht with ⟨rfl, rfl⟩ | ⟨rfl, rfl⟩ | ⟨rfl, rfl⟩
    · cases h
    · obtain ⟨rfl, rfl⟩ := of_at_hyphen h
      exact ⟨Or.inr rfl, rfl⟩
    · cases h

end Directories

lemma isOpen_hyphen : hyphenTree.IsOpen := fun _ _ _ h => (of_at_hyphen h).2

lemma isOpen_sample : sampleTree.IsOpen := fun _ _ _ h => (of_at_sample h).2

lemma withinLimit_hyphen (h : root.length < World.pathLimit) : WithinLimit root hyphenTree := by
  intro names es access hu
  obtain ⟨rfl, -⟩ := of_at_hyphen hu
  exact h

lemma withinLimit_sample : WithinLimit [Path.dot] sampleTree := by
  intro names es access hu
  rcases (of_at_sample hu).1 with rfl | rfl
  · decide
  · decide

theorem list_lists_entries_sample :
    sample.root.Legal ∧ sample.find? [Path.dot] = .ok (.top sampleTree) ∧
      isInput [Path.dot] = false ∧ WithinLimit [Path.dot] sampleTree ∧ sampleTree.IsOpen ∧
      ListsEntries sampleTree 1 (list sample [Path.dot] 1 true).value :=
  ⟨legal_sample, find?_sample, by decide, withinLimit_sample, isOpen_sample,
    list_lists_entries legal_sample find?_sample rfl (by decide) withinLimit_sample isOpen_sample 1
      true⟩

theorem not_list_lists_entries :
    ¬ ∀ (world : World) (root : Bytes) (place : World.Place) (depth : ℕ) (isSorted : Bool),
      world.root.Legal → world.find? root = .ok place → place.tree.isDirectory →
      root ≠ [0x2D] → root ≠ [0x2D, Path.slash] → WithinLimit root place.tree →
      place.tree.IsOpen →
      ListsEntries place.tree depth (list world root depth isSorted).value := by
  intro h
  obtain ⟨es, -, -, hlist⟩ := h sample [0x2D, Path.slash, Path.dot] hyphenPlace 1 true legal_sample
    find?_hyphen rfl (by decide) (by decide) (withinLimit_hyphen (by decide)) isOpen_hyphen
  rw [value_list_input (root_ok find?_hyphen rfl rfl) (by decide)] at hlist
  have hmark := (List.cons.inj (Except.ok.inj hlist)).1
  revert hmark
  decide

end PathSieve.Listing.Walk
