import PathSieve.Proofs.Run

/-! Legible reports. Where no path breaks a line, the lines of a report tell its paths and their
verdicts. -/

namespace PathSieve

def Line.seconds : List Text → List Text
  | _ :: l :: ls => l :: seconds ls
  | _ => []

def Line.verdicts (diagnostics : Bool) (ls : List Text) : List Text :=
  if diagnostics then seconds ls else ls

/-- The report gives each path its verdict on a line of its own, behind its diagnostic if those are
asked for, and its summary can be read off the lines. -/
structure Report.IsLegible (policy : Policy) (diagnostics : Bool) (paths : List Text)
    (report : Report) : Prop where
  total : report.summary.total = paths.length
  lines : Line.split '\n' report.output = paths.flatMap (policy.lines diagnostics)
  ended : Line.unsplit '\n' (Line.split '\n' report.output) = report.output
  length : (Line.split '\n' report.output).length =
    if diagnostics then 2 * report.summary.total else report.summary.total
  matched : report.summary.matched =
    (Line.verdicts diagnostics (Line.split '\n' report.output)).countP (", True".toList <:+ ·)
  others : ∀ line ∈ Line.verdicts diagnostics (Line.split '\n' report.output),
    ¬ ", True".toList <:+ line → ", False".toList <:+ line
  matched_le : report.summary.matched ≤ report.summary.total

variable (policy : Policy) (diagnostics : Bool) {paths : List Text}

lemma verdicts_flatMap_lines :
    Line.verdicts diagnostics (paths.flatMap (policy.lines diagnostics)) =
      paths.map policy.verdict := by
  induction paths with
  | nil => cases diagnostics <;> rfl
  | cons path paths ih =>
    rw [List.flatMap_cons, List.map_cons, ← ih]
    cases diagnostics <;> rfl

lemma length_flatMap_lines :
    (paths.flatMap (policy.lines diagnostics)).length =
      if diagnostics then 2 * paths.length else paths.length := by
  induction paths with
  | nil => cases diagnostics <;> rfl
  | cons path paths ih =>
    rw [List.flatMap_cons, List.length_append, ih, Policy.lines]
    cases diagnostics
    · simp [Nat.add_comm]
    · simp [Nat.mul_add, Nat.add_comm]

lemma newline_notMem_flatMap_lines :
    (∀ line ∈ paths.flatMap (policy.lines diagnostics), '\n' ∉ line) ↔
      ∀ path ∈ paths, '\n' ∉ path := by
  constructor
  · intro h path hpath
    have hline : policy.verdict path ∈ paths.flatMap (policy.lines diagnostics) :=
      List.mem_flatMap.mpr ⟨path, hpath, List.mem_append_right _ (List.mem_singleton_self _)⟩
    exact fun hmem => h _ hline (Policy.newline_mem_verdict.mpr hmem)
  · intro h line hline
    obtain ⟨path, hpath, hline⟩ := List.mem_flatMap.mp hline
    exact Policy.newline_notMem_lines (h path hpath) hline

lemma split_report (h : ∀ path ∈ paths, '\n' ∉ path) :
    Line.split '\n' (Line.unsplit '\n' (paths.flatMap (policy.lines diagnostics))) =
      paths.flatMap (policy.lines diagnostics) :=
  Line.split_unsplit ((newline_notMem_flatMap_lines policy diagnostics).mpr h)

lemma isLegible_ofPaths (h : ∀ path ∈ paths, '\n' ∉ path) :
    (Report.ofPaths policy diagnostics paths).IsLegible policy diagnostics paths := by
  have hsplit : Line.split '\n' (Report.ofPaths policy diagnostics paths).output = _ :=
    split_report policy diagnostics h
  refine ⟨rfl, hsplit, by rw [hsplit]; rfl, ?_, ?_, ?_, List.countP_le_length⟩
  · rw [hsplit, length_flatMap_lines]
    rfl
  · rw [hsplit, verdicts_flatMap_lines, List.countP_map]
    refine List.countP_congr fun path _ => ?_
    rw [Function.comp_apply, decide_eq_true_iff, Policy.true_suffix_verdict]
  · rw [hsplit, verdicts_flatMap_lines]
    intro line hline
    obtain ⟨path, -, rfl⟩ := List.mem_map.mp hline
    exact Policy.false_suffix_verdict

lemma isLegible_ofPaths_iff :
    (Report.ofPaths policy diagnostics paths).IsLegible policy diagnostics paths ↔
      ∀ path ∈ paths, '\n' ∉ path := by
  refine ⟨fun h => ?_, isLegible_ofPaths policy diagnostics⟩
  rw [← newline_notMem_flatMap_lines policy diagnostics, ← Line.length_split_unsplit]
  exact congrArg List.length h.lines

lemma length_lt_of_not_isLegible
    (h : ¬ (Report.ofPaths policy diagnostics paths).IsLegible policy diagnostics paths) :
    (paths.flatMap (policy.lines diagnostics)).length <
      (Line.split '\n' (Report.ofPaths policy diagnostics paths).output).length := by
  refine lt_of_le_of_ne (Line.length_le_length_split_unsplit _) fun heq => h ?_
  rw [isLegible_ofPaths_iff, ← newline_notMem_flatMap_lines policy diagnostics,
    ← Line.length_split_unsplit]
  exact heq.symm

lemma eq_of_output_eq {others : List Text} (h : ∀ path ∈ paths, '\n' ∉ path)
    (h' : ∀ path ∈ others, '\n' ∉ path)
    (hout : (Report.ofPaths policy diagnostics paths).output =
      (Report.ofPaths policy diagnostics others).output) : paths = others := by
  have hlines : paths.flatMap (policy.lines diagnostics) =
      others.flatMap (policy.lines diagnostics) := by
    rw [← split_report policy diagnostics h, ← split_report policy diagnostics h']
    exact congrArg (Line.split '\n') hout
  have hverdicts := congrArg (Line.verdicts diagnostics) hlines
  rw [verdicts_flatMap_lines, verdicts_flatMap_lines] at hverdicts
  exact List.map_injective_iff.mpr Policy.verdict_injective hverdicts

end PathSieve
