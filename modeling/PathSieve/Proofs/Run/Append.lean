import PathSieve.Proofs.Run.Input

/-! Runs put together. A run goes over its lines one by one with nothing carried from one to the
next but the counts, so two runs append; and diagnostics only add a line before each verdict. -/

namespace PathSieve

lemma Report.ofPaths_append (policy : Policy) (diagnostics : Bool) (as bs : List Text) :
    Report.ofPaths policy diagnostics (as ++ bs) =
      (Report.ofPaths policy diagnostics as).append (.ofPaths policy diagnostics bs) := by
  have houtput : Line.unsplit '\n' ((as ++ bs).flatMap (policy.lines diagnostics)) =
      Line.unsplit '\n' (as.flatMap (policy.lines diagnostics)) ++
        Line.unsplit '\n' (bs.flatMap (policy.lines diagnostics)) := by
    rw [List.flatMap_append, Line.unsplit, List.flatMap_append]
    rfl
  rw [ofPaths, houtput, List.length_append, List.countP_append]
  rfl

namespace Run

lemma seconds_of_diagnostics (policy : Policy) {paths : List Text}
    (h : ∀ path ∈ paths, '\n' ∉ path) :
    Line.unsplit '\n' (Line.seconds (Line.split '\n' (Report.ofPaths policy true paths).output)) =
      (Report.ofPaths policy false paths).output := by
  have hsplit : Line.split '\n' (Report.ofPaths policy true paths).output = _ :=
    split_report policy true h
  have hshown : Line.seconds (paths.flatMap (policy.lines true)) = paths.map policy.verdict :=
    verdicts_flatMap_lines policy true
  have hplain : paths.flatMap (policy.lines false) = paths.map policy.verdict :=
    verdicts_flatMap_lines policy false
  rw [hsplit, hshown, ← hplain]
  rfl

theorem report_composes (policy : Policy) :
    (∀ (diagnostics : Bool) (xs ys : List Text), ∃ r s whole,
      (report policy diagnostics none xs).value = .ok r ∧
        (report policy diagnostics none ys).value = .ok s ∧
        (report policy diagnostics none (xs ++ ys)).value = .ok whole ∧
        whole.output = r.output ++ s.output ∧
        whole.summary.total = r.summary.total + s.summary.total ∧
        whole.summary.matched = r.summary.matched + s.summary.matched) ∧
    ∀ raws : List Text, (∀ raw ∈ raws, '\n' ∉ raw) → ∃ shown plain,
      (report policy true none raws).value = .ok shown ∧
        (report policy false none raws).value = .ok plain ∧
        Line.unsplit '\n' (Line.split '\n' shown.output) = shown.output ∧
        Line.unsplit '\n' (Line.seconds (Line.split '\n' shown.output)) = plain.output ∧
        shown.summary = plain.summary := by
  constructor
  · intro diagnostics xs ys
    refine ⟨_, _, _, value_report policy diagnostics xs, value_report policy diagnostics ys,
      value_report policy diagnostics (xs ++ ys), ?_⟩
    rw [List.map_append, Report.ofPaths_append]
    exact ⟨rfl, rfl, rfl⟩
  · intro raws h
    have hpaths := newline_notMem_strip h
    exact ⟨_, _, value_report policy true raws, value_report policy false raws,
      (isLegible_ofPaths policy true hpaths).ended, seconds_of_diagnostics policy hpaths, rfl⟩

theorem report_composes_pair :
    (∀ raw ∈ ["./d/".toList, "[]".toList], '\n' ∉ raw) ∧ ∃ shown,
      (report (.denylist .standard) true none ["./d/".toList, "[]".toList]).value = .ok shown ∧
        Line.unsplit '\n' (Line.seconds (Line.split '\n' shown.output)) =
          "d/, True\n[], False\n".toList ∧
        shown.summary = ⟨2, 1⟩ := by
  have hlines : ∀ raw ∈ ["./d/".toList, "[]".toList], '\n' ∉ raw := by decide
  have hvalue : (report (.denylist .standard) false none ["./d/".toList, "[]".toList]).value =
      .ok ⟨"d/, True\n[], False\n".toList, ⟨2, 1⟩⟩ := rfl
  obtain ⟨shown, plain, hshown, hplain, -, hseconds, hsummary⟩ :=
    (report_composes (.denylist .standard)).2 _ hlines
  obtain rfl := Except.ok.inj (hplain.symm.trans hvalue)
  exact ⟨hlines, shown, hshown, hseconds, hsummary⟩

end Run

end PathSieve
