import PathSieve.Proofs.Listing.Directory
import PathSieve.Proofs.Tree.Lookup
import PathSieve.Proofs.Tree.Sorted

/-! Sorted listings. Lines stand in the order of their paths, compared name by name, which is not
the order of the lines as texts: `./a/b` stands before `./a-b`. -/

namespace PathSieve.Listing.Walk

open PathSieve.Tree (Entry)

section Order

lemma prefix_of_between {p x y : List Bytes} (hx : p < x) (hxy : x < y) (hy : p <+: y) :
    p <+: x := by
  induction p generalizing x y with
  | nil => exact List.nil_prefix
  | cons a p ih =>
    obtain ⟨y, rfl, hpy⟩ := List.cons_prefix_iff.mp hy
    cases x with
    | nil => exact absurd hx (List.not_lt_nil _)
    | cons b x =>
      rcases List.cons_lt_cons_iff.mp hx with hab | ⟨rfl, hpx⟩
      · rcases List.cons_lt_cons_iff.mp hxy with hba | ⟨rfl, -⟩
        · exact absurd hba (List.lt_asymm hab)
        · exact absurd hab (List.lt_irrefl b)
      · rcases List.cons_lt_cons_iff.mp hxy with haa | ⟨-, hxy'⟩
        · exact absurd haa (List.lt_irrefl a)
        · exact List.cons_prefix_cons.mpr ⟨rfl, ih hpx hxy' hpy⟩

lemma exists_block {f : Text → List Bytes} {p : List Bytes} {lines : List Text}
    (hp : ∀ line ∈ lines, p < f line) (hlines : lines.Pairwise fun a b => f a < f b) :
    ∃ below rest, lines = below ++ rest ∧ (∀ line ∈ below, p <+: f line) ∧
      ∀ line ∈ rest, ¬ p <+: f line := by
  induction lines with
  | nil => exact ⟨[], [], rfl, by simp, by simp⟩
  | cons line lines ih =>
    rw [List.forall_mem_cons] at hp
    rw [List.pairwise_cons] at hlines
    by_cases hline : p <+: f line
    · obtain ⟨below, rest, rfl, hbelow, hrest⟩ := ih hp.2 hlines.2
      exact ⟨line :: below, rest, rfl, List.forall_mem_cons.mpr ⟨hline, hbelow⟩, hrest⟩
    · refine ⟨[], line :: lines, rfl, by simp, List.forall_mem_cons.mpr ⟨hline, ?_⟩⟩
      intro line' hline' hprefix
      exact hline (prefix_of_between hp.1 (hlines.1 line' hline') hprefix)

end Order

def components (line : Text) : List Bytes := (Listed.parts line).map Utf8.encode

/-- The lines stand in the order of their paths, each directly before all that is below it. -/
structure InOrder (lines : List Text) : Prop where
  increasing : lines.Pairwise fun a b => components a < components b
  below : ∀ before line after, lines = before ++ line :: after →
    ∃ below rest, after = below ++ rest ∧ (∀ l ∈ below, components line <+: components l) ∧
      ∀ l ∈ before ++ rest, ¬ components line <+: components l

lemma inOrder_of_increasing {lines : List Text}
    (h : lines.Pairwise fun a b => components a < components b) : InOrder lines := by
  refine ⟨h, ?_⟩
  rintro before line after rfl
  rw [List.pairwise_append, List.pairwise_cons] at h
  obtain ⟨-, ⟨hafter, hincreasing⟩, hbefore⟩ := h
  obtain ⟨below, rest, rfl, hbelow, hrest⟩ := exists_block hafter hincreasing
  refine ⟨below, rest, rfl, hbelow, fun l hl hprefix => ?_⟩
  rcases List.mem_append.mp hl with hl | hl
  · -- what extends a path does not stand before it
    exact hprefix.le (hbefore l hl line List.mem_cons_self)
  · exact hrest l hl hprefix

def HasPlainNames (t : Tree) : Prop := ∀ names u, t.At names u → ∀ name ∈ names, 0x5C ∉ name

variable {t : Tree} {root : Bytes} {depth : ℕ}

lemma components_line (ht : t.Legal) (hplain : HasPlainNames t) {e : Entry}
    (he : e ∈ reached root depth true t) {line : Text} (h : entryLine? e = some line) :
    components line = e.names := by
  obtain ⟨-, u, hu, -⟩ := of_mem_reached he
  exact parts_entryLine? (ht.at hu).1 (hplain _ _ hu) h

lemma inOrder_lines (ht : t.Legal) (hplain : HasPlainNames t) (root : Bytes) (depth : ℕ) :
    InOrder ((reached root depth true t).filterMap entryLine?) := by
  have hentries : (reached root depth true t).Pairwise fun a b => a.names < b.names :=
    Tree.pairwise_entries depth [] _ ht.ordered_sorted
  refine inOrder_of_increasing (List.pairwise_filterMap.mpr ?_)
  refine hentries.imp_of_mem fun ha hb hab line hline line' hline' => ?_
  rwa [components_line ht hplain ha hline, components_line ht hplain hb hline']

lemma lines_eq_filter (ht : t.Legal) (hplain : HasPlainNames t) (root : Bytes) {deeper : ℕ}
    (h : depth ≤ deeper) :
    (reached root depth true t).filterMap entryLine? =
      ((reached root deeper true t).filterMap entryLine?).filter fun line =>
        (Listed.parts line).length ≤ depth := by
  have hreached : reached root depth true t =
      (reached root deeper true t).filter fun e => e.names.length ≤ [].length + depth :=
    Tree.entries_eq_filter h [] _
  rw [hreached, List.filterMap_filter, List.filter_filterMap]
  refine List.filterMap_congr fun e he => ?_
  cases hline : entryLine? e with
  | none => simp
  | some line =>
    have hlength : (Listed.parts line).length = e.names.length := by
      rw [← components_line ht hplain he hline, components, List.length_map]
    simp [Option.filter, hlength]

lemma list_reordered {world world' : World} (hroot : world.root.Reordered world'.root)
    (hcwd : world'.cwd = world.cwd) (hlegal : world.root.Legal) (root : Bytes) (depth : ℕ) :
    (list world' root depth true).value = (list world root depth true).value := by
  have hsame := World.find?_reordered hroot hcwd hlegal root
  rw [list, list, Listing.root, Listing.root]
  cases hfound : world.find? root with
  | error why =>
    rw [hfound] at hsame
    generalize world'.find? root = found at hsame
    cases hsame
    cases why <;> rfl
  | ok place =>
    rw [hfound] at hsame
    generalize world'.find? root = found at hsame
    cases hsame with
    | @ok _ place' hp =>
      have hsorted := hp.tree.sorted_eq (World.legal_of_find? hlegal hfound)
      dsimp only
      rw [hp.access?]
      cases place.access? with
      | none => rfl
      | some access => cases hlist : access.canList <;> simp [visits, hsorted, hlist]

theorem list_sorted_canonical {world : World} {root : Bytes} (hlegal : world.root.Legal)
    (hin : isInput root = false)
    (hplain : ∀ place, world.find? root = .ok place → HasPlainNames place.tree) (depth : ℕ) :
    (∀ lines, (list world root depth true).value = .ok lines → InOrder lines) ∧
      (∀ place, Listing.root world root = .ok place →
        ∃ below, (list world root depth true).value = .ok (Listed.mark :: below)) ∧
      (∀ world' : World, world.root.Reordered world'.root → world'.cwd = world.cwd →
        (list world' root depth true).value = (list world root depth true).value) ∧
      ∀ deeper, depth ≤ deeper → (list world root depth true).value =
        (list world root deeper true).value.map fun lines =>
          lines.filter fun line => (Listed.parts line).length ≤ depth := by
  refine ⟨fun lines h => ?_, fun place hroot => ?_,
    fun world' hroot hcwd => list_reordered hroot hcwd hlegal root depth, fun deeper hle => ?_⟩
  · obtain ⟨place, hroot⟩ := root_of_list h
    have hfound := (of_root_ok hroot).1
    have ht := World.legal_of_find? hlegal hfound
    rw [value_list hroot ht hin] at h
    exact Except.ok.inj h ▸ inOrder_lines ht (hplain place hfound) root depth
  · obtain ⟨hfound, hdir⟩ := of_root_ok hroot
    obtain ⟨es, hes⟩ := exists_reached hdir root depth true
    rw [value_list hroot (World.legal_of_find? hlegal hfound) hin, hes, List.filterMap_cons,
      entryLine?_root]
    exact ⟨_, rfl⟩
  · cases hroot : Listing.root world root with
    | error why => simp [list, hroot, Except.map]
    | ok place =>
      have hfound := (of_root_ok hroot).1
      have ht := World.legal_of_find? hlegal hfound
      rw [value_list hroot ht hin, value_list hroot ht hin,
        lines_eq_filter ht (hplain place hfound) root hle]
      rfl

lemma hasPlainNames_directory {es : List (Bytes × Tree)} {access : Access}
    (h : ∀ e ∈ es, 0x5C ∉ e.1 ∧ HasPlainNames e.2) : HasPlainNames (.directory es access) := by
  intro names u hu name hname
  cases hu with
  | here => cases hname
  | inside ht hu =>
    obtain ⟨hhead, hrest⟩ := h _ ht
    rcases List.mem_cons.mp hname with rfl | hname
    · exact hhead
    · exact hrest _ _ hu name hname

lemma hasPlainNames_leaf (h : t.isDirectory = false) : HasPlainNames t := by
  intro names u hu name hname
  cases hu with
  | here => cases hname
  | inside => cases h

lemma hasPlainNames_hyphen : HasPlainNames hyphenTree := by
  refine hasPlainNames_directory (List.forall_mem_singleton.mpr ⟨by decide, ?_⟩)
  exact hasPlainNames_leaf rfl

lemma hasPlainNames_sample : HasPlainNames sampleTree := by
  refine hasPlainNames_directory (List.forall_mem_cons.mpr ⟨⟨by decide, ?_⟩,
    List.forall_mem_cons.mpr ⟨⟨by decide, hasPlainNames_hyphen⟩,
      List.forall_mem_singleton.mpr ⟨by decide, ?_⟩⟩⟩)
  · exact hasPlainNames_leaf rfl
  · exact hasPlainNames_leaf rfl

theorem list_sorted_canonical_sample :
    sample.root.Legal ∧ isInput [Path.dot] = false ∧
      (∀ place, sample.find? [Path.dot] = .ok place → HasPlainNames place.tree) ∧
      sample.root.Reordered turned.root ∧
      (∃ below, (list sample [Path.dot] 1 true).value = .ok (Listed.mark :: below) ∧
        InOrder (Listed.mark :: below)) ∧
      (list turned [Path.dot] 1 true).value = (list sample [Path.dot] 1 true).value ∧
      (list sample [Path.dot] 1 true).value =
        (list sample [Path.dot] 2 true).value.map fun lines =>
          lines.filter fun line => (Listed.parts line).length ≤ 1 := by
  have hplain : ∀ place, sample.find? [Path.dot] = .ok place → HasPlainNames place.tree := by
    intro place h
    obtain rfl := Except.ok.inj (find?_sample.symm.trans h)
    exact hasPlainNames_sample
  obtain ⟨horder, hlist, hsame, hdepth⟩ :=
    list_sorted_canonical legal_sample (by decide) hplain 1
  obtain ⟨below, hbelow⟩ := hlist _ (root_ok find?_sample rfl rfl)
  exact ⟨legal_sample, by decide, hplain, reordered_sample, ⟨below, hbelow, horder _ hbelow⟩,
    hsame turned reordered_sample rfl, hdepth 2 (by decide)⟩

theorem not_list_sorted_canonical :
    ¬ ∀ (world : World) (root : Bytes) (depth deeper : ℕ), world.root.Legal →
      root ≠ [0x2D] → root ≠ [0x2D, Path.slash] →
      (∀ place, world.find? root = .ok place → HasPlainNames place.tree) → depth ≤ deeper →
      (list world root depth true).value = (list world root deeper true).value.map fun lines =>
        lines.filter fun line => (Listed.parts line).length ≤ depth := by
  intro h
  have hplain : ∀ place, sample.find? [0x2D, Path.slash, Path.dot] = .ok place →
      HasPlainNames place.tree := by
    intro place hfound
    obtain rfl := Except.ok.inj (find?_hyphen.symm.trans hfound)
    exact hasPlainNames_hyphen
  -- the line of standard input has two components at every depth
  have hdepth := h sample [0x2D, Path.slash, Path.dot] 0 0 legal_sample (by decide) (by decide)
    hplain (le_refl 0)
  rw [value_list_input (root_ok find?_hyphen rfl rfl) (by decide)] at hdepth
  have hlines := Except.ok.inj hdepth
  revert hlines
  decide

end PathSieve.Listing.Walk
