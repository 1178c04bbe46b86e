import PathSieve.Proofs.Listing.Input
import PathSieve.Proofs.Run
import PathSieve.Session

/-! How sessions end. What was written before a failure would stand in the output; no step that can
fail comes behind the first record. -/

namespace PathSieve.Session

section Steps

variable (host : Host) (world : World) (env : Environment) (arguments : Arguments) (input : Bytes)

inductive Fails : Failure → Prop
  | discovery {e : Failure} : discovered host world env arguments = .error e → Fails e
  | policy {settings : Settings} {source : Option Bytes} {e : Failure} :
      discovered host world env arguments = .ok (settings, source) →
      settings.policyFor arguments.policy = .error e → Fails e
  | listing {settings : Settings} {source : Option Bytes} {policy : Policy} {e : Failure} :
      discovered host world env arguments = .ok (settings, source) →
      settings.policyFor arguments.policy = .ok policy →
      (list host world env arguments input).value = .error e → Fails e

inductive Succeeds : Policy → List Text → Prop
  | intro {settings : Settings} {source : Option Bytes} {policy : Policy} {raws : List Text} :
      discovered host world env arguments = .ok (settings, source) →
      settings.policyFor arguments.policy = .ok policy →
      (list host world env arguments input).value = .ok raws → Succeeds policy raws

variable {host world env arguments input} {policy : Policy} {raws : List Text} {e : Failure}

lemma Fails.value_write (h : Fails host world env arguments input e) :
    (write host world env arguments input).value = .fail none e := by
  cases h with
  | discovery hfound => rw [write, hfound]
  | policy hfound hpolicy => simp [write, hfound, hpolicy]
  | listing hfound hpolicy hlist => simp [write, hfound, hpolicy, Run.write, hlist]

lemma Succeeds.report_write (h : Succeeds host world env arguments input policy raws) :
    (write host world env arguments input).value.report =
      .ok (.ofPaths policy (!arguments.noDiagnostics) (raws.map Listed.strip)) := by
  cases h with
  | intro hfound hpolicy hlist =>
    have hreport := Run.value_report policy (!arguments.noDiagnostics) raws
    rw [Run.report, Run.ofListing] at hreport
    simp only [write, hfound, hpolicy]
    rw [← hreport, Run.write, Run.write, hlist]

lemma Fails.unique {e' : Failure} (h : Fails host world env arguments input e)
    (h' : Fails host world env arguments input e') : e = e' := by
  have hsame : Run.Written.fail none e = .fail none e' := h.value_write.symm.trans h'.value_write
  exact Except.error.inj (congrArg Run.Written.ending hsame)

lemma Fails.not_succeeds (h : Fails host world env arguments input e) :
    ¬ Succeeds host world env arguments input policy raws := by
  intro h'
  have hreport := h'.report_write
  rw [h.value_write] at hreport
  cases hreport

lemma Succeeds.unique {policy' : Policy} {raws' : List Text}
    (h : Succeeds host world env arguments input policy raws)
    (h' : Succeeds host world env arguments input policy' raws') :
    policy = policy' ∧ raws = raws' := by
  obtain ⟨hfound, hpolicy, hlist⟩ := h
  obtain ⟨hfound', hpolicy', hlist'⟩ := h'
  obtain ⟨rfl, rfl⟩ := Prod.mk.inj (Except.ok.inj (hfound.symm.trans hfound'))
  exact ⟨Except.ok.inj (hpolicy.symm.trans hpolicy'), Except.ok.inj (hlist.symm.trans hlist')⟩

end Steps

inductive Ending where
  | refused (fault : Arguments.Fault)
  | answered (stop : Arguments.Stop)
  | failed (e : Failure)
  | finished (policy : Policy) (raws : List Text)

namespace Outcome

def IsRefused (outcome : Outcome) : Prop := outcome.code = 2 ∧ outcome.stdout = []

def IsFailed (outcome : Outcome) (e : Failure) : Prop :=
  outcome.code = 1 ∧ outcome.stdout = [] ∧
    (Line.split '\n' ("Error: ".toList ++ e.message)).map (false, ·) <:+ outcome.remarks

def IsFinished (outcome : Outcome) (policy : Policy) (diagnostics : Bool) (raws : List Text) :
    Prop :=
  outcome.code = 0 ∧ outcome.stdout =
    Line.unsplit '\n' ((raws.map Listed.strip).flatMap (policy.lines diagnostics))

end Outcome

/-- A session ends in one of four ways: by what its arguments are, or by what its steps do. -/
inductive Ends (host : Host) (world : World) (env : Environment) (argv : List Bytes) (input : Bytes)
    (outcome : Outcome) : Ending → Prop
  | refused {fault : Arguments.Fault} : Arguments.parse argv = .error (.fault fault) →
      outcome.IsRefused → Ends host world env argv input outcome (.refused fault)
  | answered {stop : Arguments.Stop} : Arguments.parse argv = .error stop →
      (∀ fault, stop ≠ .fault fault) → outcome.code = 0 →
      Ends host world env argv input outcome (.answered stop)
  | failed {arguments : Arguments} {e : Failure} : Arguments.parse argv = .ok arguments →
      Fails host world env arguments input e → outcome.IsFailed e →
      Ends host world env argv input outcome (.failed e)
  | finished {arguments : Arguments} {policy : Policy} {raws : List Text} :
      Arguments.parse argv = .ok arguments → Succeeds host world env arguments input policy raws →
      outcome.IsFinished policy (!arguments.noDiagnostics) raws →
      Ends host world env argv input outcome (.finished policy raws)

section Runs

variable (host : Host) (world : World) (env : Environment) (input : Bytes) {argv : List Bytes}

end Runs

variable {host : Host} {world : World} {env : Environment} {argv : List Bytes} {input : Bytes}

lemma Ends.unique {outcome : Outcome} {a b : Ending} (ha : Ends host world env argv input outcome a)
    (hb : Ends host world env argv input outcome b) : a = b := by
  cases ha with
  | refused ha =>
    cases hb with
    | refused hb =>
      obtain ⟨⟩ := ha.symm.trans hb
      rfl
    | answered hb hstop => exact absurd (Except.error.inj (hb.symm.trans ha)) (hstop _)
    | failed hb | finished hb => cases ha.symm.trans hb
  | answered ha hstop =>
    cases hb with
    | refused hb => exact absurd (Except.error.inj (ha.symm.trans hb)) (hstop _)
    | answered hb =>
      obtain rfl := Except.error.inj (ha.symm.trans hb)
      rfl
    | failed hb | finished hb => cases ha.symm.trans hb
  | failed ha hfails =>
    cases hb with
    | refused hb | answered hb => cases ha.symm.trans hb
    | failed hb hfails' =>
      obtain rfl := Except.ok.inj (ha.symm.trans hb)
      rw [hfails.unique hfails']
    | finished hb hsucceeds =>
      obtain rfl := Except.ok.inj (ha.symm.trans hb)
      exact absurd hsucceeds hfails.not_succeeds
  | finished ha hsucceeds =>
    cases hb with
    | refused hb | answered hb => cases ha.symm.trans hb
    | failed hb hfails =>
      obtain rfl := Except.ok.inj (ha.symm.trans hb)
      exact absurd hsucceeds hfails.not_succeeds
    | finished hb hsucceeds' =>
      obtain rfl := Except.ok.inj (ha.symm.trans hb)
      obtain ⟨rfl, rfl⟩ := hsucceeds.unique hsucceeds'
      rfl

end PathSieve.Session
