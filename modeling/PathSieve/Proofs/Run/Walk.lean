import PathSieve.Proofs.Listing.Lines
import PathSieve.Proofs.Run.Legible

namespace PathSieve

namespace Listing.Walk

open PathSieve.Tree (Entry)

def BreaksLine (e : Entry) : Prop := ∃ name ∈ e.names, 0x0A ∈ name

lemma newline_mem_strip {e : Entry} {line : Text} (h : entryLine? e = some line) :
    '\n' ∈ Listed.strip line ↔ BreaksLine e := by
  obtain ⟨rel, hrel, rfl⟩ := entryLine?_eq_some.mp h
  rw [Listed.mem_strip_render (by decide) (by decide), BreaksLine, ← mem_entryPath (by decide),
    ← Utf8.encode_of_decode? hrel]
  exact (Utf8.mem_encode_ascii (v := 0x0A) (by decide)).symm

lemma newline_notMem_paths {es : List Entry} :
    (∀ path ∈ (es.filterMap entryLine?).map Listed.strip, '\n' ∉ path) ↔
      ∀ e ∈ es, (entryLine? e).isSome → ¬ BreaksLine e := by
  constructor
  · intro h e he hlisted hbreaks
    obtain ⟨line, hline⟩ := Option.isSome_iff_exists.mp hlisted
    refine h (Listed.strip line) ?_ ((newline_mem_strip hline).mpr hbreaks)
    exact List.mem_map_of_mem (List.mem_filterMap.mpr ⟨e, he, hline⟩)
  · intro h path hpath hnewline
    obtain ⟨line, hline, rfl⟩ := List.mem_map.mp hpath
    obtain ⟨e, he, hline⟩ := List.mem_filterMap.mp hline
    exact h e he (Option.isSome_of_eq_some hline) ((newline_mem_strip hline).mp hnewline)

end Listing.Walk

namespace Run

open Listing.Walk (isInput entryLine? BreaksLine)

/-- The report has the lines it should unless a listed entry breaks one; then it has more lines than
there are paths. -/
def Shows (policy : Policy) (es : List Tree.Entry) (paths : List Text) (report : Report) : Prop :=
  (report.IsLegible policy false paths ↔ ∀ e ∈ es, (entryLine? e).isSome → ¬ BreaksLine e) ∧
    (¬ report.IsLegible policy false paths →
      paths.length < (Line.split '\n' report.output).length)

lemma flatMap_lines_false (policy : Policy) (paths : List Text) :
    paths.flatMap (policy.lines false) = paths.map policy.verdict :=
  List.map_eq_flatMap.symm

theorem report_of_walk {world : World} {root : Bytes} {depth : ℕ} {isSorted : Bool}
    {raws : List Text} (policy : Policy) (hlegal : world.root.Legal)
    (h : (Listing.Walk.list world root depth isSorted).value = .ok raws) :
    ∃ report, (Run.report policy false none raws).value = .ok report ∧
      report.summary.total = raws.length ∧
      report.output = Line.unsplit '\n' ((raws.map Listed.strip).map policy.verdict) ∧
      if isInput root then
        raws = ["./../<stdin>".toList] ∧ report.IsLegible policy false (raws.map Listed.strip)
      else ∃ place es, world.find? root = .ok place ∧ (es.map Tree.Entry.names).Nodup ∧
        (∀ e ∈ es, e.names.length ≤ depth ∧
          ∃ u, place.tree.At e.names u ∧ e.isDirectory = u.isDirectory) ∧
        raws = es.filterMap entryLine? ∧ Shows policy es (raws.map Listed.strip) report := by
  refine ⟨_, value_report policy false raws, List.length_map _,
    congrArg (Line.unsplit '\n') (flatMap_lines_false policy _), ?_⟩
  obtain ⟨place, hroot⟩ := Listing.Walk.root_of_list h
  split_ifs with hin
  · rw [Listing.Walk.value_list_input hroot hin] at h
    obtain rfl := Except.ok.inj h
    exact ⟨rfl, isLegible_ofPaths policy false (by decide)⟩
  have hfound := (Listing.Walk.of_root_ok hroot).1
  have ht := World.legal_of_find? hlegal hfound
  rw [Listing.Walk.value_list hroot ht (Bool.eq_false_iff.mpr hin)] at h
  obtain rfl := Except.ok.inj h
  refine ⟨place, _, hfound, Listing.Walk.nodup_reached ht root depth isSorted,
    fun e he => Listing.Walk.of_mem_reached he, rfl, ?_, fun hnot => ?_⟩
  · exact (isLegible_ofPaths_iff policy false).trans Listing.Walk.newline_notMem_paths
  · have hlt := length_lt_of_not_isLegible policy false hnot
    rwa [flatMap_lines_false, List.length_map] at hlt

theorem report_of_walk_twins :
    Listing.Walk.twins.root.Legal ∧
      (Listing.Walk.list Listing.Walk.twins [Path.dot] 2 false).value =
        .ok (["./", "./a/b", "./a/", "./a/b"].map String.toList) ∧
      ∃ report, (Run.report (.denylist .standard) false none
          (["./", "./a/b", "./a/", "./a/b"].map String.toList)).value = .ok report ∧
        report.IsLegible (.denylist .standard) false
          (["", "a/b", "a/", "a/b"].map String.toList) := by
  obtain ⟨report, hreport, -, -, htree⟩ := report_of_walk (.denylist .standard)
    Listing.Walk.legal_twins Listing.Walk.list_twins
  rw [if_neg (by decide)] at htree
  obtain ⟨-, es, -, -, -, hes, hlegible, -⟩ := htree
  refine ⟨Listing.Walk.legal_twins, Listing.Walk.list_twins, report, hreport, hlegible.mpr ?_⟩
  rw [← Listing.Walk.newline_notMem_paths, ← hes]
  decide

def forgedTree : Tree :=
  .directory [(Utf8.encode "x, True\ny".toList, .file [] false true)] .free

def forged : World := ⟨forgedTree, []⟩

lemma legal_forged : forged.root.Legal := .singleton (by decide) (.file _ _ _) _

lemma find?_forged : forged.find? [Path.dot] = .ok (.top forgedTree) := World.find?_dot rfl

lemma list_forged : (Listing.Walk.list forged [Path.dot] 1 false).value =
    .ok (["./", "./x, True\ny"].map String.toList) := by
  have hreached : Listing.Walk.reached [Path.dot] 1 false forgedTree =
      [⟨[], true⟩, ⟨[Utf8.encode "x, True\ny".toList], false⟩] := by
    rfl
  have hvalue := Listing.Walk.value_list (Listing.Walk.root_ok find?_forged rfl rfl) legal_forged
    (by decide) 1 false
  rw [World.Place.top] at hvalue
  dsimp only at hvalue
  rw [hvalue, hreached]
  have h0 := Listing.Walk.entryLine?_of_encode ⟨[], true⟩ [] rfl
  have h1 := Listing.Walk.entryLine?_of_encode ⟨[Utf8.encode "x, True\ny".toList], false⟩
    "x, True\ny".toList rfl
  simp only [List.filterMap_cons, List.filterMap_nil, h0, h1]
  decide

theorem not_report_of_walk :
    ¬ ∀ (world : World) (root : Bytes) (depth : ℕ) (isSorted : Bool) (policy : Policy)
        (raws : List Text) (report : Report), world.root.Legal →
      (Listing.Walk.list world root depth isSorted).value = .ok raws →
      (Run.report policy false none raws).value = .ok report →
      (Line.split '\n' report.output).length = report.summary.total ∧
        Line.split '\n' report.output = (raws.map Listed.strip).map policy.verdict := by
  intro h
  -- the one file of the tree makes two lines, the first of which is a verdict on a path `x`
  obtain ⟨hlength, -⟩ := h forged [Path.dot] 1 false (.denylist .standard) _ _ legal_forged
    list_forged (value_report _ _ _)
  revert hlength
  decide

end Run

end PathSieve
