import PathSieve.Listing.Find
import PathSieve.Proofs.Command.Find
import PathSieve.Proofs.Listing.Directory
import PathSieve.Proofs.Listing.Names
import PathSieve.Proofs.Tree.Place

namespace PathSieve.Listing.Find

open PathSieve.Tree (Entry)

def line (e : Entry) : Bytes := Utf8.encode Listed.mark ++ Walk.entryPath e

/-- What a program prints that lists a tree to a depth: a line for each entry, in some order. -/
structure Prints (t : Tree) (depth : ℕ) (outcome : Command.Outcome) : Prop where
  status : outcome.status = .exit 0
  stdout : ∃ es, t.Enumerates depth es ∧
    outcome.stdout = Line.unsplit Command.Find.newline (es.map line)

lemma lines_unsplit {ls : List Text}
    (h : ∀ l ∈ ls, l ≠ [] ∧ '\n' ∉ l ∧ l.getLast? ≠ some '\r') :
    lines (Line.unsplit Command.Find.newline (ls.map Utf8.encode)) = ls := by
  have hencode : Line.unsplit Command.Find.newline (ls.map Utf8.encode) =
      Utf8.encode (Line.unsplit '\n' ls) := (Utf8.encode_unsplit ls).symm
  rw [lines, hencode, Utf8.decodeLossy_encode, Line.dropReturns_unsplit fun l hl => (h l hl).2,
    Line.split_unsplit fun l hl => (h l hl).2.1, List.filter_eq_self]
  intro l hl
  simp [(h l hl).1]

def text (e : Entry) : Text := Utf8.decodeLossy (line e)

variable {t u : Tree} {e : Entry}

lemma text_eq {ss : List Text} (h : ss.map Utf8.encode = e.names) :
    text e = Listed.mark ++ Text.join ['/'] ss := by
  rw [text, line, Walk.entryPath_texts h, ← Utf8.encode_append, Utf8.decodeLossy_encode]

lemma line_eq (ht : t.Legal) (hnames : t.HasNames IsLineName) (hu : t.At e.names u) :
    line e = Utf8.encode (text e) := by
  obtain ⟨ss, hss, -⟩ := exists_names (fun _ => IsLineName.backslash_notMem) ht hnames hu
  rw [text_eq hss, Utf8.encode_append, line, Walk.entryPath_texts hss]

lemma text_spec (ht : t.Legal) (hnames : t.HasNames IsLineName) (hu : t.At e.names u) :
    text e ≠ [] ∧ '\n' ∉ text e ∧ (text e).getLast? ≠ some '\r' := by
  obtain ⟨ss, hss, hall⟩ := exists_names (fun _ => IsLineName.backslash_notMem) ht hnames hu
  have hnewline := newline_notMem_join fun s hs => (hall s hs).2
  have hlast := getLast?_join_ne fun s hs => ⟨(hall s hs).1.ne_nil, (hall s hs).2⟩
  rw [text_eq hss]
  refine ⟨by simp [Listed.mark], by simp [Listed.mark, hnewline], ?_⟩
  rw [List.getLast?_append]
  cases hjoin : (Text.join ['/'] ss).getLast? with
  | none => decide
  | some c =>
    rw [hjoin] at hlast
    exact hlast

lemma unmarked_entryLine? (ht : t.Legal) (hnames : t.HasNames IsLineName) (hu : t.At e.names u) :
    (Walk.entryLine? e).map Listed.unmarked = some (text e) := by
  obtain ⟨ss, hss, hall⟩ := exists_names (fun _ => IsLineName.backslash_notMem) ht hnames hu
  rw [Walk.entryLine?_of_encode e _ (Walk.entryPath_texts hss), Option.map_some,
    Listed.unmarked_render fun s hs => (hall s hs).1, text_eq hss]

lemma filterMap_entryLine? {depth : ℕ} {es : List Entry} (ht : t.Legal)
    (hnames : t.HasNames IsLineName) (hes : t.Enumerates depth es) :
    (es.filterMap Walk.entryLine?).map Listed.unmarked = es.map text := by
  rw [List.map_filterMap, ← List.filterMap_eq_map]
  refine List.filterMap_congr fun e he => ?_
  obtain ⟨-, u, hu, -⟩ := (hes.mem_iff e).mp he
  exact unmarked_entryLine? ht hnames hu

lemma lines_stdout {depth : ℕ} {es : List Entry} (ht : t.Legal) (hnames : t.HasNames IsLineName)
    (hes : t.Enumerates depth es) :
    lines (Line.unsplit Command.Find.newline (es.map line)) = es.map text := by
  have hline : es.map line = (es.map text).map Utf8.encode := by
    rw [List.map_map]
    refine List.map_congr_left fun e he => ?_
    obtain ⟨-, u, hu, -⟩ := (hes.mem_iff e).mp he
    exact line_eq ht hnames hu
  rw [hline, lines_unsplit]
  intro l hl
  obtain ⟨e, he, rfl⟩ := List.mem_map.mp hl
  obtain ⟨-, u, hu, -⟩ := (hes.mem_iff e).mp he
  exact text_spec ht hnames hu

section Runs

variable {runner : Runner} {world : World} {root : Bytes} {place : World.Place} {search : Bytes}
  {program : Text} {depth : ℕ} {outcome : Command.Outcome}

lemma run_eq (hdir : place.tree.isDirectory) (hopen : place.tree.IsOpen)
    (hprogram : 0 ∉ Utf8.encode program) (args : List Bytes) :
    run runner world search (Utf8.encode program) place args =
      runner (world.enter place) search (Utf8.encode program) args := by
  obtain ⟨es, access, hes⟩ := Tree.isDirectory_iff.mp hdir
  obtain rfl := hopen [] es access (hes ▸ .here _)
  rw [run, if_neg (by simpa using hprogram), World.Place.access?, hes]
  rfl

lemma value_list {es : List Entry} (hlegal : world.root.Legal)
    (hroot : world.find? root = .ok place) (hdir : place.tree.isDirectory)
    (hopen : place.tree.IsOpen) (hnames : place.tree.HasNames IsLineName)
    (hprogram : 0 ∉ Utf8.encode program)
    (hrun : runner (world.enter place) search (Utf8.encode program)
      ((arguments depth).map Utf8.encode) = .ok outcome)
    (hstatus : outcome.status = .exit 0) (hes : place.tree.Enumerates depth es)
    (hstdout : outcome.stdout = Line.unsplit Command.Find.newline (es.map line)) :
    (list runner world search program root depth).value = .ok (es.map text) := by
  have hsuccess : outcome.status.isSuccess = true := hstatus ▸ rfl
  rw [list, Walk.root_ok_of_isOpen hroot hdir hopen]
  dsimp only
  rw [run_eq hdir hopen hprogram, hrun]
  dsimp only
  rw [result, if_pos hsuccess, hstdout,
    lines_stdout (World.legal_of_find? hlegal hroot) hnames hes]

theorem list_agrees_with_walk (hlegal : world.root.Legal) (hroot : world.find? root = .ok place)
    (hdir : place.tree.isDirectory) (hin : Walk.isInput root = false)
    (hlimit : Walk.WithinLimit root place.tree) (hopen : place.tree.IsOpen)
    (hnames : place.tree.HasNames IsLineName) (hprogram : 0 ∉ Utf8.encode program)
    (hrun : runner (world.enter place) search (Utf8.encode program)
      ((arguments depth).map Utf8.encode) = .ok outcome)
    (hprints : Prints place.tree depth outcome) (isSorted : Bool) :
    ∃ found walked, (list runner world search program root depth).value = .ok found ∧
      (Walk.list world root depth isSorted).value = .ok walked ∧
      found.Perm (walked.map Listed.unmarked) := by
  have ht := World.legal_of_find? hlegal hroot
  obtain ⟨hstatus, es, hes, hstdout⟩ := hprints
  have hreached := Walk.enumerates_reached ht hlimit hopen depth isSorted
  refine ⟨es.map text, _,
    value_list hlegal hroot hdir hopen hnames hprogram hrun hstatus hes hstdout,
    Walk.value_list (Walk.root_ok_of_isOpen hroot hdir hopen) ht hin depth isSorted, ?_⟩
  rw [filterMap_entryLine? ht hnames hreached]
  exact (hes.perm hreached).map text

lemma prints_find (hlegal : world.root.Legal) (hroot : world.find? root = .ok place)
    (hdir : place.tree.isDirectory) (hopen : place.tree.IsOpen) {directory : Bytes}
    {more : List Bytes} (hsearch : Command.Search.directories search = directory :: more)
    (hsystem : Command.Search.systemName? (Command.Search.candidate directory
      (Utf8.encode standard)) = some (Utf8.encode standard))
    (hdepth : depth ≤ Command.Find.greatestDepth) :
    ∃ outcome, Command.Program.run (world.enter place) search (Utf8.encode standard)
        ((arguments depth).map Utf8.encode) = .ok outcome ∧ Prints place.tree depth outcome := by
  have ht := World.legal_of_find? hlegal hroot
  have hes : place.tree.Enumerates depth (place.tree.entries (fun _ => true) depth []) :=
    Tree.enumerates_entries ht (fun _ _ _ _ => rfl) depth
  obtain ⟨entries, access, htree⟩ := Tree.isDirectory_iff.mp hdir
  obtain rfl := hopen [] entries access (htree ▸ .here _)
  have hfound := World.find?_enter (World.standing_of_find? hroot) htree rfl
  refine ⟨_, (Command.Program.run_find _ hsearch hsystem _).trans (congrArg Except.ok
    (Command.Find.run_maxDepth _ hdepth hfound hopen)), rfl, _, hes, ?_⟩
  refine congrArg (Line.unsplit _) (List.map_congr_left fun e he => ?_)
  obtain ⟨-, u, hu, -⟩ := (hes.mem_iff e).mp he
  exact Path.spell_mark (ht.at hu).1

end Runs

lemma hasNames_hyphen : Walk.hyphenTree.HasNames IsLineName := by
  intro names u hu name hname
  cases hu with
  | here => cases hname
  | inside ht hu =>
    obtain ⟨rfl, rfl⟩ := Prod.mk.inj (List.mem_singleton.mp ht)
    cases hu
    obtain rfl := List.mem_singleton.mp hname
    exact ⟨['b'], rfl, by decide, by decide, by decide⟩

def systemSearch : Bytes := Utf8.encode "/usr/bin".toList

lemma prints_sample {root : Bytes} (hroot : Walk.sample.find? root = .ok Walk.hyphenPlace) :
    ∃ outcome, Command.Program.run (Walk.sample.enter Walk.hyphenPlace) systemSearch
        (Utf8.encode standard) ((arguments 1).map Utf8.encode) = .ok outcome ∧
      Prints Walk.hyphenTree 1 outcome := by
  have hsearch : Command.Search.directories systemSearch = [systemSearch] := by decide
  exact prints_find Walk.legal_sample hroot rfl Walk.isOpen_hyphen hsearch (by decide) (by decide)

theorem list_agrees_with_walk_sample :
    ∃ outcome, Walk.sample.root.Legal ∧
      Walk.sample.find? [Path.dot, Path.slash, 0x2D] = .ok Walk.hyphenPlace ∧
      0 ∉ Utf8.encode standard ∧
      Command.Program.run (Walk.sample.enter Walk.hyphenPlace) systemSearch (Utf8.encode standard)
        ((arguments 1).map Utf8.encode) = .ok outcome ∧ Prints Walk.hyphenTree 1 outcome ∧
      ∃ found walked,
        (list Command.Program.run Walk.sample systemSearch standard [Path.dot, Path.slash, 0x2D]
          1).value = .ok found ∧
        (Walk.list Walk.sample [Path.dot, Path.slash, 0x2D] 1 true).value = .ok walked ∧
        found.Perm (walked.map Listed.unmarked) := by
  obtain ⟨outcome, hrun, hprints⟩ := prints_sample Walk.find?_dotted
  exact ⟨outcome, Walk.legal_sample, Walk.find?_dotted, by decide, hrun, hprints,
    list_agrees_with_walk Walk.legal_sample Walk.find?_dotted rfl (by decide)
      (Walk.withinLimit_hyphen (by decide)) Walk.isOpen_hyphen hasNames_hyphen (by decide) hrun
      hprints true⟩

theorem not_list_agrees_with_walk :
    ¬ ∀ (runner : Runner) (world : World) (root : Bytes) (place : World.Place) (search : Bytes)
        (program : Text) (depth : ℕ) (outcome : Command.Outcome) (isSorted : Bool),
      world.root.Legal → world.find? root = .ok place → place.tree.isDirectory → root ≠ [0x2D] →
      Walk.WithinLimit root place.tree → place.tree.IsOpen → place.tree.HasNames IsLineName →
      0 ∉ Utf8.encode program →
      runner (world.enter place) search (Utf8.encode program)
        ((arguments depth).map Utf8.encode) = .ok outcome → Prints place.tree depth outcome →
      ∃ found walked, (list runner world search program root depth).value = .ok found ∧
        (Walk.list world root depth isSorted).value = .ok walked ∧
        found.Perm (walked.map Listed.unmarked) := by
  intro h
  -- a root that is written `-/.` is listed as standard input by a walk and as a directory by `find`
  obtain ⟨outcome, hrun, hprints⟩ := prints_sample Walk.find?_hyphen
  obtain ⟨found, walked, hfound, hwalked, hperm⟩ := h Command.Program.run Walk.sample
    [0x2D, Path.slash, Path.dot] Walk.hyphenPlace systemSearch standard 1 outcome true
    Walk.legal_sample Walk.find?_hyphen rfl (by decide) (Walk.withinLimit_hyphen (by decide))
    Walk.isOpen_hyphen hasNames_hyphen (by decide) hrun hprints
  rw [Walk.value_list_input (Walk.root_ok Walk.find?_hyphen rfl rfl) (by decide)] at hwalked
  obtain rfl := Except.ok.inj hwalked
  obtain ⟨hstatus, es, hes, hstdout⟩ := hprints
  rw [value_list Walk.legal_sample Walk.find?_hyphen rfl Walk.isOpen_hyphen hasNames_hyphen
    (by decide) hrun hstatus hes hstdout] at hfound
  obtain rfl := Except.ok.inj hfound
  have hroot : ⟨[], true⟩ ∈ es := (hes.mem_iff _).mpr ⟨Nat.zero_le _, _, .here _, rfl⟩
  have hnone : ([] : List Text).map Utf8.encode = (⟨[], true⟩ : Entry).names := rfl
  have hmark : text ⟨[], true⟩ = Listed.mark := text_eq hnone
  have hmem := hperm.mem_iff.mp (List.mem_map_of_mem hroot)
  rw [hmark] at hmem
  revert hmem
  decide

end PathSieve.Listing.Find
