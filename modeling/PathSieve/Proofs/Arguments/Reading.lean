import Mathlib.Data.List.Nodup
import PathSieve.Proofs.Arguments.Spelled

/-! Reading arguments from left to right. An option may still wait for its value to be taken in when
the next argument is read, so what arguments do is told up to that: they are read as a function on
progress that waits for nothing. Arguments that follow one another are read as the composition. -/

namespace PathSieve.Arguments.Progress

structure ReadAs (words : List Bytes) (f : Progress → Parsed Progress) : Prop where
  settle_eq : ∀ progress : Progress, progress.IsOpen →
    (progress.steps words >>= settle) = progress.settle >>= f
  isOpen : ∀ progress r : Progress, progress.IsOpen → progress.steps words = .ok r → r.IsOpen

variable {progress q r : Progress} {p : Parameter}

lemma settle_keep (hq : q.pending = none) (value : Bytes) :
    (q.keep p value).settle = q.give p (some value) := by
  have hkeep : { q.keep p value with pending := none } = q := by
    rw [← hq]
    rfl
  exact congrArg (fun q : Progress => q.give p (some value)) hkeep

lemma settle_give (hq : q.pending = none) (value : Option Bytes) :
    (q.give p value >>= settle) = q.give p value := by
  cases hgive : q.give p value with
  | error stop => rfl
  | ok r =>
    obtain ⟨arguments, rfl⟩ := give_ok hgive
    exact settle_of_pending hq

lemma readAs_spelled {value : Option Bytes} {words : List Bytes} (h : Spelled p value words)
    (hflag : p ≠ .help ∧ p ≠ .version) : ReadAs words (·.give p value) where
  settle_eq progress hopen := by
    rcases steps_spelled hopen h hflag with hgive | ⟨v, rfl, hkeep⟩
    · rw [hgive, bind_assoc]
      cases hsettle : progress.settle with
      | error stop => rfl
      | ok q => exact settle_give (settle_ok hsettle).1 value
    · rw [hkeep, bind_assoc]
      cases hsettle : progress.settle with
      | error stop => rfl
      | ok q => exact settle_keep (settle_ok hsettle).1 v
  isOpen progress r hopen hr := by
    rcases steps_spelled hopen h hflag with hgive | ⟨v, rfl, hkeep⟩
    · obtain ⟨q, hsettle, hq⟩ := Except.bind_ok.mp (hgive.symm.trans hr)
      obtain ⟨arguments, rfl⟩ := give_ok hq
      exact ⟨(hopen.of_settle hsettle).isTrailing, (hopen.of_settle hsettle).hasDirectory⟩
    · obtain ⟨q, hsettle, hq⟩ := Except.bind_ok.mp (hkeep.symm.trans hr)
      cases hq
      exact ⟨(hopen.of_settle hsettle).isTrailing, (hopen.of_settle hsettle).hasDirectory⟩

lemma readAs_nil : ReadAs [] pure where
  settle_eq progress _ := (bind_pure progress.settle).symm
  isOpen progress r hopen hr := by
    cases hr
    exact hopen

lemma ReadAs.append {words more : List Bytes} {f g : Progress → Parsed Progress}
    (hf : ReadAs words f) (hg : ReadAs more g) : ReadAs (words ++ more) fun q => f q >>= g where
  settle_eq progress hopen := by
    rw [steps, List.foldlM_append, ← bind_assoc, ← hf.settle_eq progress hopen, bind_assoc,
      bind_assoc]
    change (progress.steps words >>= fun r => r.steps more >>= settle) = _
    cases hr : progress.steps words with
    | error stop => rfl
    | ok r => exact hg.settle_eq r (hf.isOpen progress r hopen hr)
  isOpen progress r hopen hr := by
    rw [steps, List.foldlM_append] at hr
    obtain ⟨q, hq, hr⟩ := Except.bind_ok.mp hr
    exact hg.isOpen q r (hf.isOpen progress q hopen hq) hr

section Parse

lemma conflict?_eq_none (hnodup : q.given.Nodup)
    (h : ¬ (Parameter.stdin ∈ q.given ∧ Parameter.lister ∈ q.given)) : q.conflict? = none := by
  rw [conflict?]
  split
  · next a b hfilter =>
    have hboth : ∀ p ∈ [a, b], p ∈ q.given ∧ (p = .stdin ∨ p = .lister) := by
      rw [← hfilter]
      simp
    have hne : a ≠ b := by
      have hfiltered := (List.nodup_reverse.mpr hnodup).filter
        fun p => decide (p = .stdin) || decide (p = .lister)
      rw [hfilter] at hfiltered
      simpa using hfiltered
    obtain ⟨ha, ha'⟩ := hboth a List.mem_cons_self
    obtain ⟨hb, hb'⟩ := hboth b (List.mem_cons_of_mem a List.mem_cons_self)
    rcases ha' with rfl | rfl <;> rcases hb' with rfl | rfl
    · exact absurd rfl hne
    · exact absurd ⟨ha, hb⟩ h
    · exact absurd ⟨hb, ha⟩ h
    · exact absurd rfl hne
  · rfl

lemma settle_trailing (r : Progress) :
    ({ r with isTrailing := true } : Progress).settle =
      r.settle.map fun q => { q with isTrailing := true } := by
  obtain ⟨arguments, given, pending, isTrailing, hasDirectory⟩ := r
  rcases pending with - | ⟨p, - | value⟩
  · rfl
  · rfl
  · simp only [settle, take]
    split_ifs
    · rfl
    · cases setValue arguments p value <;> rfl

lemma step_trailing {r : Progress} (h : r.isTrailing = true) (argument : Bytes) :
    r.step argument = r.positional argument := by
  rw [step.eq_def, if_pos h]

def close (q : Progress) (directory : Bytes) : Progress :=
  { q.keep .directory directory with isTrailing := true, hasDirectory := true }

lemma steps_directory (hopen : r.IsOpen) (directory : Bytes) :
    r.steps [dashes, directory] = r.settle.map (·.close directory) := by
  have hdashes : r.step dashes = .ok { r with isTrailing := true } :=
    step_marked hopen hyphen []
  have hempty : ¬ r.hasDirectory = true := Bool.eq_false_iff.mp hopen.hasDirectory
  rw [steps_cons, hdashes]
  change ({ r with isTrailing := true } : Progress).steps [directory] = _
  rw [steps_singleton, step_trailing rfl, positional, if_neg hempty, Except.bind_pure,
    settle_trailing]
  cases r.settle <;> rfl

variable {words : List Bytes} {f : Progress → Parsed Progress} {directory : Bytes}

lemma parse_eq (h : ReadAs words f) (directory : Bytes) :
    parse (words ++ [dashes, directory]) = f {} >>= fun q => (q.close directory).finish := by
  have hopen : ({} : Progress).IsOpen := ⟨rfl, rfl⟩
  have hf : f {} = (({} : Progress).steps words >>= settle) := (h.settle_eq {} hopen).symm
  rw [parse, List.foldlM_append, hf, bind_assoc, bind_assoc]
  change (({} : Progress).steps words >>= fun r => r.steps [dashes, directory] >>= finish) = _
  cases hr : ({} : Progress).steps words with
  | error stop => rfl
  | ok r =>
    change (r.steps [dashes, directory] >>= finish) =
      r.settle >>= fun q => (q.close directory).finish
    rw [steps_directory (h.isOpen {} r hopen hr)]
    cases r.settle <;> rfl

lemma parse_error (h : ReadAs words f) {stop : Stop} (hstop : f {} = .error stop)
    (directory : Bytes) : parse (words ++ [dashes, directory]) = .error stop := by
  rw [parse_eq h, hstop]
  rfl

lemma settle_close (hgiven : Parameter.directory ∉ q.given) (hdirectory : directory ≠ []) :
    ∃ r, (q.close directory).settle = .ok r ∧ r.arguments = { q.arguments with directory } ∧
      r.given = .directory :: q.given := by
  have hvalue : setValue q.arguments .directory directory = .ok { q.arguments with directory } := by
    simp [setValue, nonempty, hdirectory]
  refine ⟨{ arguments := _, given := _, isTrailing := true, hasDirectory := true }, ?_, rfl, rfl⟩
  simp only [close, keep, settle, take, if_neg hgiven, hvalue]
  rfl

lemma finish_eq (hsettle : progress.settle = .ok q) (hconflict : q.conflict? = none) :
    progress.finish = .ok q.arguments := by
  refine Except.bind_ok.mpr ⟨q, hsettle, ?_⟩
  rw [hconflict]
  rfl

lemma parse_ok (h : ReadAs words f) (hq : f {} = .ok q)
    (hgiven : (Parameter.directory :: q.given).Nodup)
    (hconflict : ¬ (Parameter.stdin ∈ q.given ∧ Parameter.lister ∈ q.given))
    (hdirectory : directory ≠ []) :
    parse (words ++ [dashes, directory]) = .ok { q.arguments with directory } := by
  obtain ⟨r, hsettle, harguments, hr⟩ :=
    settle_close (List.nodup_cons.mp hgiven).1 hdirectory
  rw [← hr] at hgiven
  have hnone : r.conflict? = none := conflict?_eq_none hgiven (by simpa [hr] using hconflict)
  rw [parse_eq h, hq, ← harguments]
  exact finish_eq hsettle hnone

end Parse

end PathSieve.Arguments.Progress
