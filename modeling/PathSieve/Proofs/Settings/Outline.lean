import Mathlib.Data.List.Nodup
import Mathlib.Logic.Function.Basic
import PathSieve.Proofs.Toml.Line

/-! The ways to write settings down: lines in an order that TOML allows, in any layout. An outline
is what the lines before some point have set. -/

namespace PathSieve.Settings

open Toml Toml.Layout
open Policy (Kind)

def policyName : Text := "policy".toList

def fieldNames : Kind → List Text
  | .denylist => listNames
  | .allowlist => patternNames

/-- What has been set: the policy, the table of each kind with the way it is written, and the
header that the next field falls under. -/
structure Outline where
  policy : Option Kind := none
  table : Kind → Option (Origin × List Field) := fun _ => none
  heading : Option Kind := none

def Outline.put (o : Outline) (kind : Kind) (origin : Origin) (fs : List Field) : Outline :=
  { o with table := Function.update o.table kind (some (origin, fs)) }

lemma Outline.put_self (o : Outline) (kind : Kind) (origin : Origin) (fs : List Field) :
    (o.put kind origin fs).table kind = some (origin, fs) := Function.update_self _ _ _

lemma Outline.put_of_ne {o : Outline} {kind k : Kind} (h : k ≠ kind) {origin : Origin}
    {fs : List Field} : (o.put kind origin fs).table k = o.table k := Function.update_of_ne h _ _

/-- What a line may set. Nothing is set twice, a table is written in one way, and all that stands
above the first header is set at the top. -/
inductive Outline.Step : Outline → Line → Outline → Prop
  | blank (o : Outline) : Step o .blank o
  | policy {o : Outline} (kind : Kind) : o.policy = none → o.heading = none →
      Step o (.setting policyName kind.name) { o with policy := some kind }
  | first {o : Outline} {kind : Kind} {f : Field} : o.heading = none → o.table kind = none →
      f.1 ∈ fieldNames kind → Step o (.dotted kind.name f) (o.put kind .dotted [f])
  | next {o : Outline} {kind : Kind} {f : Field} {fs : List Field} : o.heading = none →
      o.table kind = some (.dotted, fs) → f.1 ∈ fieldNames kind → f.1 ∉ fs.map (·.1) →
      Step o (.dotted kind.name f) (o.put kind .dotted (fs ++ [f]))
  | inline {o : Outline} {kind : Kind} {fs : List Field} : o.heading = none →
      o.table kind = none → (∀ f ∈ fs, f.1 ∈ fieldNames kind) → (fs.map (·.1)).Nodup →
      Step o (.inline kind.name fs) (o.put kind .braced fs)
  | header {o : Outline} {kind : Kind} : o.table kind = none →
      Step o (.header kind.name) { o.put kind .header [] with heading := some kind }
  | field {o : Outline} {kind : Kind} {f : Field} {fs : List Field} : o.heading = some kind →
      o.table kind = some (.header, fs) → f.1 ∈ fieldNames kind → f.1 ∉ fs.map (·.1) →
      Step o (.field f) (o.put kind .header (fs ++ [f]))

inductive Outline.Run : Outline → List Line → Outline → Prop
  | nil (o : Outline) : Run o [] o
  | cons {o p q : Outline} {l : Line} {ls : List Line} : Step o l p → Run p ls q →
      Run o (l :: ls) q

def fields (settings : Settings) : Kind → List Field
  | .denylist =>
    (settings.exact.map ("exact".toList, ·)).toList ++
      (settings.prefixes.map ("prefixes".toList, ·)).toList ++
      (settings.suffixes.map ("suffixes".toList, ·)).toList
  | .allowlist => (settings.patterns.map ("patterns".toList, ·)).toList

structure Outline.Sets (o : Outline) (settings : Settings) : Prop where
  policy : o.policy = settings.policy
  fields (kind : Kind) : (((o.table kind).map (·.2)).getD []).Perm (settings.fields kind)

def Written (settings : Settings) (t : Text) : Prop :=
  ∃ ls o, Outline.Run {} ls o ∧ o.Sets settings ∧ Document ls t

lemma mem_sectionNames {name : Text} :
    name ∈ sectionNames ↔ name = policyName ∨ ∃ kind : Kind, name = kind.name := by
  simp only [sectionNames, List.mem_cons, List.not_mem_nil, or_false]
  refine or_congr_right ⟨?_, ?_⟩
  · rintro (h | h)
    · exact ⟨.denylist, h⟩
    · exact ⟨.allowlist, h⟩
  · rintro ⟨_ | _, h⟩
    · exact Or.inl h
    · exact Or.inr h

lemma nodup_fieldNames (kind : Kind) : (fieldNames kind).Nodup := by cases kind <;> decide

lemma fields_sublist (settings : Settings) (kind : Kind) :
    ((settings.fields kind).map (·.1)).Sublist (fieldNames kind) := by
  obtain ⟨policy, exact, prefixes, suffixes, patterns⟩ := settings
  cases kind with
  | denylist =>
    cases exact <;> cases prefixes <;> cases suffixes <;>
      simp [fields, fieldNames, listNames]
  | allowlist => cases patterns <;> simp [fields, fieldNames, patternNames]

lemma mem_fieldNames {settings : Settings} {kind : Kind} {f : Field}
    (hf : f ∈ settings.fields kind) : f.1 ∈ fieldNames kind :=
  (fields_sublist settings kind).subset (List.mem_map_of_mem hf)

lemma nodup_fields (settings : Settings) (kind : Kind) :
    ((settings.fields kind).map (·.1)).Nodup :=
  (fields_sublist settings kind).nodup (nodup_fieldNames kind)

lemma policyName_ne (kind : Kind) : policyName ≠ kind.name := by cases kind <;> decide

lemma name_injective : Function.Injective Kind.name := by
  intro a b h
  cases a <;> cases b <;> first | rfl | exact absurd h (by decide)

lemma isBareName_of_mem {kind : Kind} {name : Text} (h : name ∈ fieldNames kind) :
    IsBareName name := by
  have hall : ∀ kind, ∀ name ∈ fieldNames kind, IsBareName name := by
    rintro (_ | _) <;> decide
  exact hall kind name h

lemma isBareName_name (kind : Kind) : IsBareName kind.name := by cases kind <;> decide

variable {o p : Outline}

lemma isPlain_of_step {l : Line} (h : o.Step l p) : l.IsPlain := by
  cases h with
  | blank => trivial
  | policy => exact (by decide : IsBareName policyName)
  | first _ _ hf => exact ⟨isBareName_name _, isBareName_of_mem hf⟩
  | next _ _ hf => exact ⟨isBareName_name _, isBareName_of_mem hf⟩
  | inline _ _ hf hnodup =>
    exact ⟨isBareName_name _, fun f hmem => isBareName_of_mem (hf f hmem), hnodup⟩
  | header => exact isBareName_name _
  | field _ _ hf => exact isBareName_of_mem hf

lemma isPlain_of_run {ls : List Line} (h : o.Run ls p) : ∀ l ∈ ls, l.IsPlain := by
  induction h with
  | nil => exact fun _ hl => absurd hl List.not_mem_nil
  | cons hstep _ ih => exact List.forall_mem_cons.mpr ⟨isPlain_of_step hstep, ih⟩

end PathSieve.Settings
