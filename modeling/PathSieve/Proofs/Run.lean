import PathSieve.Proofs.Buffer
import PathSieve.Proofs.Except
import PathSieve.Proofs.Text.Line
import PathSieve.Proofs.Text.Quoted
import PathSieve.Run

namespace PathSieve

namespace Policy

def verdict (policy : Policy) (path : Text) : Text :=
  path ++ if policy.accepts path then ", True".toList else ", False".toList

def lines (policy : Policy) (diagnostics : Bool) (path : Text) : List Text :=
  (if diagnostics then [Quoted.list (policy.captures path)] else []) ++ [policy.verdict path]

variable {policy : Policy}

lemma true_suffix_verdict {path : Text} :
    ", True".toList <:+ policy.verdict path ↔ policy.accepts path = true := by
  rw [verdict]
  split_ifs with h
  · exact iff_of_true (List.suffix_append _ _) h
  · refine iff_of_false (fun hsuffix => ?_) h
    have hboth := List.suffix_of_suffix_length_le hsuffix (List.suffix_append path _) (by decide)
    revert hboth
    decide

lemma false_suffix_verdict {path : Text} (h : ¬ ", True".toList <:+ policy.verdict path) :
    ", False".toList <:+ policy.verdict path := by
  rw [true_suffix_verdict] at h
  rw [verdict, if_neg h]
  exact List.suffix_append _ _

lemma verdict_injective : Function.Injective policy.verdict := by
  intro a b h
  have hsame : policy.accepts a = policy.accepts b := by
    rw [Bool.eq_iff_iff, ← true_suffix_verdict, ← true_suffix_verdict, h]
  rw [verdict, verdict, hsame] at h
  exact List.append_cancel_right h

lemma newline_mem_verdict {path : Text} : '\n' ∈ policy.verdict path ↔ '\n' ∈ path := by
  rw [verdict, List.mem_append]
  refine or_iff_left ?_
  split_ifs <;> decide

lemma newline_notMem_lines {diagnostics : Bool} {path line : Text} (h : '\n' ∉ path)
    (hline : line ∈ policy.lines diagnostics path) : '\n' ∉ line := by
  rw [lines, List.mem_append, List.mem_singleton] at hline
  rcases hline with hline | rfl
  · split_ifs at hline
    · exact List.mem_singleton.mp hline ▸ Quoted.newline_notMem_list _
    · cases hline
  · rwa [newline_mem_verdict]

end Policy

namespace Record

lemma verdict_evaluate (policy : Policy) (raw : Text) :
    (evaluate policy raw).verdict = policy.verdict (Listed.strip raw) := by
  rw [verdict, matched_evaluate]
  rfl

lemma render_evaluate (policy : Policy) (diagnostics : Bool) (raw : Text) :
    (evaluate policy raw).render diagnostics =
      Line.unsplit '\n' (policy.lines diagnostics (Listed.strip raw)) := by
  have hdiagnostic : (evaluate policy raw).diagnostic =
      Quoted.list (policy.captures (Listed.strip raw)) := rfl
  rw [render, verdict_evaluate, hdiagnostic, Policy.lines]
  cases diagnostics <;> simp [Line.unsplit]

end Record

variable (policy : Policy) (diagnostics : Bool)

def Report.ofPaths (paths : List Text) : Report where
  output := Line.unsplit '\n' (paths.flatMap (policy.lines diagnostics))
  summary := ⟨paths.length, paths.countP policy.accepts⟩

namespace Run

lemma add_evaluate (raw : Text) (report : Report) :
    report.add diagnostics (Record.evaluate policy raw) =
      ⟨Line.unsplit '\n' (policy.lines diagnostics (Listed.strip raw)) ++ report.output,
        ⟨report.summary.total + 1,
          report.summary.matched + (policy.accepts (Listed.strip raw)).toNat⟩⟩ := by
  rw [Report.add, Record.render_evaluate, Record.matched_evaluate]

lemma ofRecords_evaluate (raws : List Text) :
    Report.ofRecords diagnostics (raws.map (Record.evaluate policy)) =
      Report.ofPaths policy diagnostics (raws.map Listed.strip) := by
  induction raws with
  | nil => rfl
  | cons raw raws ih =>
    rw [Report.ofRecords] at ih
    rw [Report.ofRecords, List.map_cons, List.foldr_cons, ih, add_evaluate, Report.ofPaths,
      Report.ofPaths, List.map_cons, List.flatMap_cons, List.countP_cons, Line.unsplit,
      Line.unsplit, Line.unsplit, List.flatMap_append]
    cases policy.accepts (Listed.strip raw) <;> rfl

end Run

def Report.append (a b : Report) : Report where
  output := a.output ++ b.output
  summary := ⟨a.summary.total + b.summary.total, a.summary.matched + b.summary.matched⟩

namespace Run

variable (progress : Progress)

def Progress.add (record : Record) : Progress :=
  ⟨progress.buffer.append (record.pieces diagnostics),
    ⟨progress.summary.total + 1, progress.summary.matched + record.matched.toNat⟩⟩

def Progress.finish (rest : Report) : Except Failure Report :=
  if progress.buffer.HasRoom (Utf8.size rest.output) then .ok (progress.report.append rest)
  else .error (.system .noRoom)

lemma Progress.report_add (record : Record) (rest : Report) :
    (progress.add diagnostics record).report.append rest =
      progress.report.append (rest.add diagnostics record) := by
  simp only [Progress.report, Progress.add, Report.append, Report.add, Buffer.text_append,
    Record.flatten_pieces, List.append_assoc, Nat.add_assoc, Nat.add_comm 1,
    Nat.add_comm record.matched.toNat]

lemma step_of_hasRoom {record : Record}
    (h : progress.buffer.HasRoom (Utf8.size (record.render diagnostics))) :
    step diagnostics progress record = .ok (progress.add diagnostics record) := by
  rw [← Record.flatten_pieces] at h
  rw [step, Buffer.foldlM_write h]
  rfl

lemma step_of_not_hasRoom (hcut : progress.buffer.cut = []) {record : Record}
    (h : ¬ progress.buffer.HasRoom (Utf8.size (record.render diagnostics))) :
    ∃ full, step diagnostics progress record = .error full ∧
      full.bytes = progress.buffer.bytes ++
        progress.buffer.fitting (Utf8.encode (record.render diagnostics)) := by
  rw [← Record.flatten_pieces] at h ⊢
  obtain ⟨full, hfull, hbytes⟩ := Buffer.foldlM_write_error hcut h
  exact ⟨full, by rw [step, hfull]; rfl, hbytes⟩

lemma Progress.finish_add (record : Record) (rest : Report) :
    progress.finish (rest.add diagnostics record) =
      if progress.buffer.HasRoom (Utf8.size (record.render diagnostics)) then
        (progress.add diagnostics record).finish rest
      else .error (.system .noRoom) := by
  have hroom := progress.buffer.ite_hasRoom_add (record.pieces diagnostics)
    (Utf8.size rest.output) (Except.ok (progress.report.append (rest.add diagnostics record)))
    (.error (Failure.system .noRoom))
  rw [Record.flatten_pieces, ← Utf8.size_append] at hroom
  rw [finish, finish, report_add]
  exact hroom

lemma report_steps (hcut : progress.buffer.cut = []) (raws : List Text) :
    (steps policy diagnostics progress raws).value.report =
      progress.finish (.ofRecords diagnostics (raws.map (Record.evaluate policy))) := by
  induction raws generalizing progress with
  | nil =>
    have hroom : progress.buffer.HasRoom (Utf8.size []) := fun room _ => Nat.zero_le room
    have hnil : progress.report.append .empty = progress.report := by
      simp [Report.append, Report.empty]
    exact (congrArg Except.ok hnil.symm).trans (if_pos hroom).symm
  | cons raw raws ih =>
    have hrest : Report.ofRecords diagnostics ((raw :: raws).map (Record.evaluate policy)) =
        (Report.ofRecords diagnostics (raws.map (Record.evaluate policy))).add diagnostics
          (Record.evaluate policy raw) := rfl
    rw [hrest, progress.finish_add, steps]
    split_ifs with hfirst
    · rw [step_of_hasRoom diagnostics progress hfirst]
      exact ih (progress.add diagnostics _) hcut
    · obtain ⟨full, hfull, -⟩ := step_of_not_hasRoom diagnostics progress hcut hfirst
      rw [hfull]
      rfl

lemma bytes_steps (hcut : progress.buffer.cut = []) (raws : List Text) :
    (steps policy diagnostics progress raws).value.buffer.bytes = progress.buffer.bytes ++
      progress.buffer.fitting (Utf8.encode
        (Report.ofRecords diagnostics (raws.map (Record.evaluate policy))).output) := by
  induction raws generalizing progress with
  | nil =>
    have hfitting : progress.buffer.fitting [] = [] := by
      rw [Buffer.fitting]
      cases progress.buffer.room with
      | none => rfl
      | some room => exact List.take_nil
    exact (List.append_nil _).symm.trans (congrArg _ hfitting.symm)
  | cons raw raws ih =>
    have hrest :
        (Report.ofRecords diagnostics ((raw :: raws).map (Record.evaluate policy))).output =
        (Record.evaluate policy raw).render diagnostics ++
          (Report.ofRecords diagnostics (raws.map (Record.evaluate policy))).output := rfl
    rw [hrest, steps]
    by_cases hfirst : progress.buffer.HasRoom
        (Utf8.size ((Record.evaluate policy raw).render diagnostics))
    · rw [step_of_hasRoom diagnostics progress hfirst]
      refine (ih (progress.add diagnostics _) hcut).trans ?_
      rw [← Record.flatten_pieces] at hfirst ⊢
      exact Buffer.bytes_append_fitting hcut hfirst _
    · obtain ⟨full, hfull, hbytes⟩ := step_of_not_hasRoom diagnostics progress hcut hfirst
      rw [hfull, Buffer.fitting_of_not_hasRoom hfirst]
      exact hbytes

lemma value_write_congr {policy : Policy} {diagnostics : Bool} {capacity : Option ℕ}
    {listed listed' : Logged (Except Failure (List Text))} (h : listed.value = listed'.value) :
    (write policy diagnostics capacity listed).value =
      (write policy diagnostics capacity listed').value := by
  rw [write, write, h]
  cases listed'.value <;> rfl

lemma value_report_of_capacity (capacity : Option ℕ) (raws : List Text) :
    (report policy diagnostics capacity raws).value =
      if ∀ room ∈ capacity,
          Utf8.size (Report.ofPaths policy diagnostics (raws.map Listed.strip)).output ≤ room then
        .ok (.ofPaths policy diagnostics (raws.map Listed.strip))
      else .error (.system .noRoom) := by
  have happend (rest : Report) : (start capacity).report.append rest = rest := by
    simp [start, Progress.report, Report.append, Buffer.ofCapacity, Buffer.text]
  have hsteps := report_steps policy diagnostics (start capacity) rfl raws
  rw [ofRecords_evaluate, Progress.finish, happend] at hsteps
  exact hsteps

lemma value_report (raws : List Text) :
    (report policy diagnostics none raws).value =
      .ok (Report.ofPaths policy diagnostics (raws.map Listed.strip)) := by
  rw [value_report_of_capacity, if_pos (by simp)]

lemma value_report_records (raws : List Text) :
    (report policy diagnostics none raws).value =
      .ok (.ofRecords diagnostics (raws.map (Record.evaluate policy))) := by
  rw [value_report, ofRecords_evaluate]

end Run

end PathSieve
