import PathSieve.Proofs.Settings.Outline

namespace PathSieve.Settings

open Toml Toml.Layout
open Policy (Kind)

section Values

def escape (c : Char) : Text :=
  if isText c ∧ c ≠ '"' ∧ c ≠ '\\' then [c]
  else ['\\', 'u', '0', '0', Nat.digitChar (c.toNat / 16), Nat.digitChar (c.toNat % 16)]

def quote (s : Text) : Text := '"' :: (s.flatMap escape ++ ['"'])

def array (ss : List Text) : Text := '[' :: (ss.flatMap (quote · ++ [',']) ++ [']'])

lemma toNat_lt_of_not_text {c : Char} (h : ¬ (isText c ∧ c ≠ '"' ∧ c ≠ '\\')) : c.toNat < 128 := by
  by_contra hc
  have hlarge : 128 ≤ c.toNat := by omega
  have hne {d : Char} (hd : d.toNat < 128) : c ≠ d := by
    rintro rfl
    omega
  apply h
  refine ⟨?_, hne (by decide), hne (by decide)⟩
  have hspace : ' ' ≤ c := by
    have hle : ' '.toNat ≤ c.toNat := (by decide : ' '.toNat ≤ 128).trans hlarge
    exact hle
  simp [isText, hspace, hne (by decide : '\x7f'.toNat < 128)]

lemma hexDigit?_digitChar {v : ℕ} (h : v < 16) : Text.hexDigit? (Nat.digitChar v) = some v := by
  have hall : ∀ v < 16, Text.hexDigit? (Nat.digitChar v) = some v := by decide
  exact hall v h

lemma numbers_escape {c : Char} (h : c.toNat < 128) :
    Numbers ['0', '0', Nat.digitChar (c.toNat / 16), Nat.digitChar (c.toNat % 16)] c := by
  refine ⟨[0, 0, c.toNat / 16, c.toNat % 16], ?_, ?_⟩
  · exact .cons rfl (.cons rfl (.cons (hexDigit?_digitChar (by omega))
      (.cons (hexDigit?_digitChar (by omega)) .nil)))
  · simp only [List.reverse_cons, List.reverse_nil, List.nil_append, List.cons_append,
      Nat.ofDigits_cons, Nat.ofDigits_nil]
    omega

lemma body_escape (s r : Text) : Body s (s.flatMap escape ++ '"' :: r) r := by
  induction s with
  | nil => exact .close r
  | cons c s ih =>
    rw [List.flatMap_cons, List.append_assoc, escape]
    split_ifs with hc
    · exact .plain hc.1 hc.2.1 hc.2.2 ih
    · exact .four (numbers_escape (toNat_lt_of_not_text hc)) ih

lemma quoted_quote (s r : Text) : Quoted s (quote s ++ r) r := by
  rw [quote, List.cons_append, List.append_assoc]
  exact .mk (body_escape s r)

lemma sequence_array (ss : List Text) (r : Text) : Sequence ss (array ss ++ r) r := by
  rw [array, List.cons_append, List.append_assoc]
  refine .mk ?_
  induction ss with
  | nil => exact .close (.stop _)
  | cons s ss ih =>
    rw [List.flatMap_cons, List.append_assoc, List.append_assoc]
    exact .more (.stop _) (quoted_quote s _) (.stop _) ih

end Values

section Lines

def writeField (f : Field) : Text := f.1 ++ '=' :: (array f.2 ++ ['\n'])

def writeFields (fs : List Field) : Text := fs.flatMap writeField

def writeTable (kind : Kind) (fs : List Field) : Text :=
  '[' :: (kind.name ++ ']' :: '\n' :: writeFields fs)

def writePolicy : Option Kind → Text
  | none => []
  | some kind => policyName ++ '=' :: (quote kind.name ++ ['\n'])

def write (settings : Settings) : Text :=
  writePolicy settings.policy ++ (writeTable .denylist (settings.fields .denylist) ++
    writeTable .allowlist (settings.fields .allowlist))

def policyLines : Option Kind → List Line
  | none => []
  | some kind => [.setting policyName kind.name]

def tableLines (kind : Kind) (fs : List Field) : List Line := .header kind.name :: fs.map .field

lemma pair_writeField (f : Field) (r : Text) : Pair f (writeField f ++ r) ('\n' :: r) := by
  rw [writeField, List.append_assoc, List.cons_append, List.append_assoc]
  exact .mk (.stop _) (.stop _) (.stop _) (sequence_array f.2 _)

variable {ls : List Line} {t : Text}

lemma document_fields (fs : List Field) (h : Document ls t) :
    Document (fs.map .field ++ ls) (writeFields fs ++ t) := by
  induction fs with
  | nil => exact h
  | cons f fs ih =>
    rw [writeFields, List.flatMap_cons, List.append_assoc]
    exact .cons (by simp [writeField]) (.field (pair_writeField f _)) (.newline (.feed _)) ih

lemma document_table (kind : Kind) (fs : List Field) (h : Document ls t) :
    Document (tableLines kind fs ++ ls) (writeTable kind fs ++ t) := by
  rw [writeTable, List.cons_append, List.append_assoc]
  exact .cons (List.cons_ne_nil _ _) (.header (.stop _) (.stop _) (.stop _)) (.newline (.feed _))
    (document_fields fs h)

lemma document_policy (policy : Option Kind) (h : Document ls t) :
    Document (policyLines policy ++ ls) (writePolicy policy ++ t) := by
  cases policy with
  | none => exact h
  | some kind =>
    rw [writePolicy, List.append_assoc, List.cons_append, List.append_assoc]
    exact .cons (by simp [policyName])
      (.setting (.stop _) (.stop _) (.stop _) (quoted_quote kind.name _)) (.newline (.feed _)) h

end Lines

section Outlines

variable {o p q : Outline} {ls ms : List Line}

lemma Outline.Run.append (h : o.Run ls p) (h' : p.Run ms q) : o.Run (ls ++ ms) q := by
  induction h with
  | nil => exact h'
  | cons hstep _ ih => exact .cons hstep (ih h')

lemma run_fields {kind : Kind} {done fs : List Field} (hheading : o.heading = some kind)
    (htable : o.table kind = some (.header, done)) (hfs : ∀ f ∈ fs, f.1 ∈ fieldNames kind)
    (hnodup : ((done ++ fs).map (·.1)).Nodup) :
    o.Run (fs.map .field) (o.put kind .header (done ++ fs)) := by
  induction fs generalizing o done with
  | nil =>
    have hput : o.put kind .header (done ++ []) = o := by
      rw [List.append_nil, Outline.put, ← htable, Function.update_eq_self]
    rw [hput]
    exact .nil o
  | cons f fs ih =>
    have hput : (o.put kind .header (done ++ [f])).put kind .header (done ++ [f] ++ fs) =
        o.put kind .header (done ++ f :: fs) := by
      simp [Outline.put]
    have hfresh : f.1 ∉ done.map (·.1) := by
      rw [List.map_append, List.nodup_append] at hnodup
      exact fun hmem => hnodup.2.2 _ hmem _ List.mem_cons_self rfl
    rw [List.append_cons] at hnodup
    rw [← hput]
    exact .cons (.field hheading htable (hfs f List.mem_cons_self) hfresh)
      (ih hheading (Outline.put_self ..) (fun g hg => hfs g (List.mem_cons_of_mem f hg)) hnodup)

lemma run_table {kind : Kind} {fs : List Field} (htable : o.table kind = none)
    (hfs : ∀ f ∈ fs, f.1 ∈ fieldNames kind) (hnodup : (fs.map (·.1)).Nodup) :
    o.Run (tableLines kind fs) { o.put kind .header fs with heading := some kind } := by
  have hrun := run_fields (o := { o.put kind .header [] with heading := some kind }) rfl
    (Outline.put_self o kind .header []) hfs hnodup
  have hput : Outline.put { o.put kind .header [] with heading := some kind } kind .header
      ([] ++ fs) = { o.put kind .header fs with heading := some kind } := by
    simp [Outline.put]
  rw [hput] at hrun
  exact .cons (.header htable) hrun

lemma run_policy (policy : Option Kind) :
    Outline.Run {} (policyLines policy) { policy := policy } := by
  cases policy with
  | none => exact .nil _
  | some kind => exact .cons (.policy kind rfl rfl) (.nil _)

end Outlines

theorem written_write (settings : Settings) : Written settings (write settings) := by
  have hrun := (run_policy settings.policy).append
    ((run_table rfl (fun _ => mem_fieldNames) (nodup_fields settings .denylist)).append
      (run_table rfl (fun _ => mem_fieldNames) (nodup_fields settings .allowlist)))
  refine ⟨_, _, hrun, ⟨rfl, fun kind => ?_⟩, ?_⟩
  · cases kind with
    | denylist => exact .refl _
    | allowlist => exact .refl _
  · have hdoc := document_policy settings.policy (document_table .denylist
      (settings.fields .denylist) (document_table .allowlist (settings.fields .allowlist) .nil))
    rw [List.append_nil, List.append_nil] at hdoc
    exact hdoc

end PathSieve.Settings
