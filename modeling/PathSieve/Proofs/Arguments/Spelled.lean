import Mathlib.Data.List.TakeWhile
import PathSieve.Arguments.Parse
import PathSieve.Proofs.Except
import PathSieve.Proofs.Text.Utf8.Decode

namespace PathSieve.Arguments

def dashes : Bytes := [hyphen, hyphen]

-- A value on its own does not start like an option.
def StandsAlone (value : Bytes) : Prop := value.head? = some hyphen → value = [hyphen]

instance (value : Bytes) : Decidable (StandsAlone value) := inferInstanceAs (Decidable (_ → _))

/-- The spellings of a parameter, with the value that it is given if it takes one. An equals sign
behind a letter is no part of the value. -/
inductive Spelled (p : Parameter) : Option Bytes → List Bytes → Prop
  | flag {name : Text} : p.takesValue = false → p.long? = some name →
      Spelled p none [dashes ++ Utf8.encode name]
  | joined {name : Text} (value : Bytes) : p.takesValue = true → p.long? = some name →
      Spelled p (some value) [dashes ++ Utf8.encode name ++ equals :: value]
  | apart {name : Text} {value : Bytes} : p.takesValue = true → p.long? = some name →
      StandsAlone value → Spelled p (some value) [dashes ++ Utf8.encode name, value]
  | letterJoined {c : Char} {value : Bytes} : p.takesValue = true → p.short? = some c →
      value ≠ [] → value.head? ≠ some equals →
      Spelled p (some value) [hyphen :: Utf8.encode [c] ++ value]
  | letterEquals {c : Char} (value : Bytes) : p.takesValue = true → p.short? = some c →
      Spelled p (some value) [hyphen :: Utf8.encode [c] ++ equals :: value]
  | letterApart {c : Char} {value : Bytes} : p.takesValue = true → p.short? = some c →
      StandsAlone value → Spelled p (some value) [hyphen :: Utf8.encode [c], value]

namespace Progress

structure IsOpen (progress : Progress) : Prop where
  isTrailing : progress.isTrailing = false
  hasDirectory : progress.hasDirectory = false

def give (progress : Progress) (p : Parameter) : Option Bytes → Parsed Progress
  | some value => progress.take p (setValue · p value)
  | none => progress.take p fun arguments => .ok (setFlag arguments p)

def steps (progress : Progress) (words : List Bytes) : Parsed Progress := words.foldlM step progress

variable {progress q r : Progress} {p : Parameter}

lemma IsOpen.not_trailing (h : progress.IsOpen) : ¬ progress.isTrailing = true :=
  Bool.eq_false_iff.mp h.isTrailing

lemma take_ok {set : Arguments → Parsed Arguments} (h : progress.take p set = .ok r) :
    ∃ arguments, r = { progress with arguments, given := p :: progress.given } := by
  rw [take] at h
  split_ifs at h with hgiven
  · cases h
  · obtain ⟨arguments, -, hr⟩ := Except.bind_ok.mp h
    cases hr
    exact ⟨arguments, rfl⟩

lemma give_ok {value : Option Bytes} (h : progress.give p value = .ok r) :
    ∃ arguments, r = { progress with arguments, given := p :: progress.given } := by
  cases value with
  | none => rw [give] at h; exact take_ok h
  | some value => rw [give] at h; exact take_ok h

lemma settle_of_pending (h : progress.pending = none) : progress.settle = .ok progress := by
  rw [settle, h]

lemma settle_ok (h : progress.settle = .ok q) :
    q.pending = none ∧ q.isTrailing = progress.isTrailing ∧
      q.hasDirectory = progress.hasDirectory := by
  rw [settle] at h
  split at h
  · next hpending =>
    cases h
    exact ⟨hpending, rfl, rfl⟩
  · cases h
  · obtain ⟨arguments, rfl⟩ := take_ok h
    exact ⟨rfl, rfl, rfl⟩

lemma IsOpen.of_settle (hopen : progress.IsOpen) (h : progress.settle = .ok q) : q.IsOpen := by
  obtain ⟨-, htrailing, hdirectory⟩ := settle_ok h
  exact ⟨htrailing.trans hopen.isTrailing, hdirectory.trans hopen.hasDirectory⟩

section Steps

variable {name value : Bytes}

lemma step_marked (hopen : progress.IsOpen) (first : UInt8) (rest : Bytes) :
    progress.step (hyphen :: first :: rest) = progress.option first rest := by
  rw [step, if_neg hopen.not_trailing]
  exact if_pos rfl

lemma step_long (hopen : progress.IsOpen) {s : Bytes} (hs : s ≠ []) :
    progress.step (dashes ++ s) = progress.long (splitEquals s).1 (splitEquals s).2 := by
  refine (step_marked hopen hyphen s).trans ?_
  rw [option, if_neg (by simp), if_neg hs]

lemma step_short (hopen : progress.IsOpen) {first : UInt8} (hfirst : first ≠ hyphen)
    (rest : Bytes) : progress.step (hyphen :: first :: rest) = progress.short first rest := by
  rw [step_marked hopen, option, if_pos hfirst]

lemma step_value (hopen : progress.IsOpen) (hvalue : StandsAlone value)
    (hpending : progress.pending = some (p, none)) :
    progress.step value = .ok { progress with pending := some (p, some value) } := by
  have hplain : progress.plain value = .ok { progress with pending := some (p, some value) } := by
    rw [plain, hpending]
  rw [step.eq_def, if_neg hopen.not_trailing]
  split
  · exact hplain
  · exact hplain
  · next mark first rest =>
    have hmark : mark ≠ hyphen := by
      rintro rfl
      cases hvalue rfl
    rw [if_neg hmark, hplain]

lemma forall_ne_equals (h : equals ∉ name) : ∀ c ∈ name, (c != equals) = true := fun _ hc =>
  bne_iff_ne.mpr (ne_of_mem_of_not_mem hc h)

lemma splitEquals_name (h : equals ∉ name) : splitEquals name = (name, none) := by
  rw [splitEquals, List.dropWhile_eq_nil_iff.mpr (forall_ne_equals h)]

lemma splitEquals_joined (h : equals ∉ name) (value : Bytes) :
    splitEquals (name ++ equals :: value) = (name, some value) := by
  rw [splitEquals, List.dropWhile_append_of_pos (forall_ne_equals h),
    List.takeWhile_append_of_pos (forall_ne_equals h)]
  simp

end Steps

section Spellings

variable {name : Text} {value : Bytes} {c : Char}

lemma long?_spec (h : p.long? = some name) :
    Utf8.encode name ≠ [] ∧ equals ∉ Utf8.encode name := by
  cases p <;> cases h <;> decide

lemma short?_spec (h : p.short? = some c) :
    ∃ first, first ≠ hyphen ∧ Utf8.encode [c] = [first] ∧
      ∀ rest, Utf8.next first rest = (some c, rest) := by
  cases p <;> cases h <;> exact ⟨_, by decide, rfl, fun _ => rfl⟩

lemma withFlag_eq (hflag : p ≠ .help ∧ p ≠ .version) (isLong : Bool) :
    progress.withFlag isLong p = progress.settle >>= (·.give p none) := by
  rw [withFlag]
  refine bind_congr fun q => ?_
  cases p with
  | help => exact absurd rfl hflag.1
  | version => exact absurd rfl hflag.2
  | _ => rfl

lemma step_name (hopen : progress.IsOpen) (hname : p.long? = some name) :
    progress.step (dashes ++ Utf8.encode name) =
      if p.takesValue then progress.await p else progress.withFlag true p := by
  obtain ⟨hne, hequals⟩ := long?_spec hname
  rw [step_long hopen hne, splitEquals_name hequals, long, Utf8.decode?_encode, Option.bind_some,
    Parameter.ofLong?_of_long? hname]
  cases hp : p.takesValue <;> simp [hp]

lemma step_joined (hopen : progress.IsOpen) (hp : p.takesValue = true)
    (hname : p.long? = some name) (value : Bytes) :
    progress.step (dashes ++ Utf8.encode name ++ equals :: value) = progress.withValue p value := by
  obtain ⟨-, hequals⟩ := long?_spec hname
  have hs : Utf8.encode name ++ equals :: value ≠ [] := by simp
  rw [List.append_assoc, step_long hopen hs, splitEquals_joined hequals, long, Utf8.decode?_encode,
    Option.bind_some, Parameter.ofLong?_of_long? hname]
  simp [hp]

lemma step_letter (hopen : progress.IsOpen) (hp : p.takesValue = true)
    (hletter : p.short? = some c) (rest : Bytes) :
    progress.step (hyphen :: Utf8.encode [c] ++ rest) =
      if rest.isEmpty then progress.await p else progress.withValue p (dropEquals rest) := by
  obtain ⟨first, hfirst, hencode, hnext⟩ := short?_spec hletter
  rw [hencode]
  refine (step_short hopen hfirst rest).trans ?_
  rw [short, hnext]
  dsimp only
  rw [letter, Parameter.ofShort?_of_short? hletter]
  simp [hp]

lemma step_letterJoined (hopen : progress.IsOpen) (hp : p.takesValue = true)
    (hletter : p.short? = some c) (hne : value ≠ []) (hvalue : value.head? ≠ some equals) :
    progress.step (hyphen :: Utf8.encode [c] ++ value) = progress.withValue p value := by
  rw [step_letter hopen hp hletter, dropEquals, if_neg hvalue, if_neg (by simpa using hne)]

lemma step_letterEquals (hopen : progress.IsOpen) (hp : p.takesValue = true)
    (hletter : p.short? = some c) (value : Bytes) :
    progress.step (hyphen :: Utf8.encode [c] ++ equals :: value) = progress.withValue p value :=
  step_letter hopen hp hletter (equals :: value)

lemma step_letterAlone (hopen : progress.IsOpen) (hp : p.takesValue = true)
    (hletter : p.short? = some c) :
    progress.step (hyphen :: Utf8.encode [c]) = progress.await p := by
  have hstep := step_letter hopen hp hletter []
  rwa [List.append_nil] at hstep

lemma await_eq : progress.await p =
    progress.settle >>= fun q => .ok { q with pending := some (p, none) } := rfl

lemma steps_cons (progress : Progress) (word : Bytes) (words : List Bytes) :
    progress.steps (word :: words) = progress.step word >>= (·.steps words) := rfl

lemma steps_singleton (progress : Progress) (word : Bytes) :
    progress.steps [word] = progress.step word := by
  rw [steps_cons]
  exact bind_pure _

-- The value waits to be taken in.
def keep (progress : Progress) (p : Parameter) (value : Bytes) : Progress :=
  { progress with pending := some (p, some value) }

lemma steps_await {word : Bytes} (hopen : progress.IsOpen)
    (hword : progress.step word = progress.await p)
    (hvalue : StandsAlone value) :
    progress.steps [word, value] = progress.settle >>= fun q => .ok (q.keep p value) := by
  rw [steps_cons, hword, await_eq]
  cases hsettle : progress.settle with
  | error stop => rfl
  | ok q =>
    have hq : ({ q with pending := some (p, none) } : Progress).IsOpen :=
      ⟨(hopen.of_settle hsettle).isTrailing, (hopen.of_settle hsettle).hasDirectory⟩
    exact (steps_singleton _ _).trans (step_value hq hvalue rfl)

lemma steps_spelled {value : Option Bytes} {words : List Bytes} (hopen : progress.IsOpen)
    (h : Spelled p value words) (hflag : p ≠ .help ∧ p ≠ .version) :
    progress.steps words = progress.settle >>= (·.give p value) ∨
      ∃ v, value = some v ∧
        progress.steps words = progress.settle >>= fun q => .ok (q.keep p v) := by
  have hgive {word : Bytes} (hword : progress.step word = progress.settle >>= (·.give p value)) :
      progress.steps [word] = progress.settle >>= (·.give p value) :=
    (steps_singleton progress word).trans hword
  cases h with
  | flag hp hname =>
    refine .inl (hgive ((step_name hopen hname).trans ?_))
    rw [hp]
    exact withFlag_eq hflag true
  | joined value hp hname => exact .inl (hgive (step_joined hopen hp hname value))
  | apart hp hname hvalue =>
    exact .inr ⟨_, rfl, steps_await hopen ((step_name hopen hname).trans (if_pos hp)) hvalue⟩
  | letterJoined hp hletter hne hvalue =>
    exact .inl (hgive (step_letterJoined hopen hp hletter hne hvalue))
  | letterEquals value hp hletter =>
    exact .inl (hgive (step_letterEquals hopen hp hletter value))
  | letterApart hp hletter hvalue =>
    exact .inr ⟨_, rfl, steps_await hopen (step_letterAlone hopen hp hletter) hvalue⟩

end Spellings

end Progress

end PathSieve.Arguments
