import PathSieve.Proofs.Settings.Outline
import PathSieve.Proofs.Toml.Line

namespace PathSieve.Settings

open Toml Toml.Layout
open Policy (Kind)

inductive PolicyAt : Option Kind → Option Node → Prop
  | absent : PolicyAt none none
  | present (kind : Kind) (span : Span) :
      PolicyAt (some kind) (some (.scalar span (.string kind.name)))

inductive TableAt : Option (Origin × List Field) → Option Node → Prop
  | absent : TableAt none none
  | present {es : Entries} {fs : List Field} (span : Option Span) (origin : Origin) :
      AreFields es fs → TableAt (some (origin, fs)) (some (.table span origin es))

lemma PolicyAt.eq_none {node? : Option Node} (h : PolicyAt none node?) : node? = none := by
  cases h
  rfl

lemma TableAt.eq_none {node? : Option Node} (h : TableAt none node?) : node? = none := by
  cases h
  rfl

lemma TableAt.eq_some {origin : Origin} {fs : List Field} {node? : Option Node}
    (h : TableAt (some (origin, fs)) node?) :
    ∃ span es, node? = some (.table span origin es) ∧ AreFields es fs := by
  cases h with
  | present span _ hes => exact ⟨span, _, rfl, hes⟩

structure Outline.Shows (o : Outline) (es : Entries) : Prop where
  nodup : es.names.Nodup
  known : ∀ name ∈ es.names, name ∈ sectionNames
  policy : PolicyAt o.policy (Entries.node? policyName es)
  table : ∀ kind, TableAt (o.table kind) (Entries.node? kind.name es)

section Entries

variable {o : Outline} {es es' : Entries} {key : Key} {node : Node}

lemma mem_concat {name : Text} (h : name ∈ Entries.names (es ++ [(key, node)])) :
    name ∈ es.names ∨ name = key.name := by
  simpa [Entries.names] using h

lemma Outline.Shows.addPolicy (hes : o.Shows es) (hnone : o.policy = none)
    (hkey : key.name = policyName) (kind : Kind) (span : Span) :
    key.name ∉ es.names ∧ Outline.Shows { o with policy := some kind }
      (es ++ [(key, .scalar span (.string kind.name))]) := by
  have hfresh : key.name ∉ es.names := by
    rw [hkey, ← node?_eq_none]
    exact (hnone ▸ hes.policy).eq_none
  refine ⟨hfresh, nodup_concat hes.nodup hfresh, fun name hname => ?_, ?_, fun k => ?_⟩
  · rcases mem_concat hname with hname | rfl
    · exact hes.known name hname
    · exact mem_sectionNames.mpr (Or.inl hkey)
  · rw [← hkey, node?_concat_self hfresh]
    exact .present kind span
  · rw [node?_concat_of_ne (hkey ▸ policyName_ne k)]
    exact hes.table k

variable {kind : Kind} {origin : Origin} {fs : List Field}

lemma Outline.Shows.addTable (hes : o.Shows es) (hnone : o.table kind = none)
    (hkey : key.name = kind.name) {inner : Entries} (span : Option Span) (origin : Origin)
    (hinner : AreFields inner fs) :
    key.name ∉ es.names ∧
      (o.put kind origin fs).Shows (es ++ [(key, .table span origin inner)]) := by
  have hfresh : key.name ∉ es.names := by
    rw [hkey, ← node?_eq_none]
    exact (hnone ▸ hes.table kind).eq_none
  refine ⟨hfresh, nodup_concat hes.nodup hfresh, fun name hname => ?_, ?_, fun k => ?_⟩
  · rcases mem_concat hname with hname | rfl
    · exact hes.known name hname
    · exact mem_sectionNames.mpr (Or.inr ⟨kind, hkey⟩)
  · rw [node?_concat_of_ne (hkey ▸ (policyName_ne kind).symm)]
    exact hes.policy
  · by_cases hk : k = kind
    · subst hk
      rw [← hkey, node?_concat_self hfresh, Outline.put_self]
      exact .present span origin hinner
    · have hne : key.name ≠ k.name := fun h => hk (name_injective (h.symm.trans hkey))
      rw [node?_concat_of_ne hne, Outline.put_of_ne hk]
      exact hes.table k

lemma Outline.Shows.growTable (hes : o.Shows es) {inner : Entries} (span : Option Span)
    (origin : Origin) (hinner : AreFields inner fs)
    (hnew : Entries.Replaced kind.name (.table span origin inner) es es') :
    (o.put kind origin fs).Shows es' := by
  refine ⟨hnew.names ▸ hes.nodup, hnew.names ▸ hes.known, ?_, fun k => ?_⟩
  · rw [hnew.others _ (policyName_ne kind)]
    exact hes.policy
  · by_cases hk : k = kind
    · subst hk
      rw [hnew.node, Outline.put_self]
      exact .present span origin hinner
    · rw [hnew.others _ (name_injective.ne hk), Outline.put_of_ne hk]
      exact hes.table k

lemma Outline.Shows.under (hes : o.Shows es) (heading : Option Kind) :
    Outline.Shows { o with heading } es := ⟨hes.nodup, hes.known, hes.policy, hes.table⟩

end Entries

structure Outline.Fits (o : Outline) (d : Draft) : Prop where
  shows_root : ∃ span es, d.root = .table (some span) .header es ∧ o.Shows es
  heading : d.heading.map (·.name) = o.heading.toList.map Kind.name

variable {o p : Outline} {d : Draft}

lemma Outline.Fits.heading_nil (h : o.Fits d) (hnone : o.heading = none) : d.heading = [] := by
  have hmap := h.heading
  rw [hnone] at hmap
  simpa using hmap

lemma Outline.Fits.heading_one (h : o.Fits d) {kind : Kind} (hsome : o.heading = some kind) :
    ∃ key, d.heading = [key] ∧ key.name = kind.name := by
  have hmap := h.heading
  rw [hsome] at hmap
  obtain ⟨key, hd, hkey⟩ := List.map_eq_singleton_iff.mp hmap
  exact ⟨key, hd, hkey⟩

lemma add?_top {span : Span} {es es' : Entries} {path : List Key} {key : Key} {node : Node}
    (hroot : d.root = .table (some span) .header es) (hh : d.heading = [])
    (h : (Node.table (some span) .header es).assign? path key node =
      some (.table (some span) .header es')) (hes : p.Shows es') (hp : p.heading = none) :
    ∃ d', d.add? (.assignment path key node) = some d' ∧ p.Fits d' := by
  refine ⟨⟨Node.extend node (.table (some span) .header es'), []⟩, ?_, ⟨_, es', rfl, hes⟩, ?_⟩
  · rw [Draft.add?, hroot, hh, Node.edit?, h]
    rfl
  · rw [hp]
    rfl

lemma fits_step {l : Line} {st : Statement} (h : o.Fits d) (hstep : o.Step l p)
    (hst : l.Means st) : ∃ d', d.add? st = some d' ∧ p.Fits d' := by
  obtain ⟨⟨span, es, hroot, hes⟩, hheading⟩ := id h
  cases hstep with
  | blank =>
    cases hst
    exact ⟨d, rfl, h⟩
  | policy kind hnone hh =>
    cases hst with
    | setting place hkey =>
      obtain ⟨hfresh, hes'⟩ := hes.addPolicy hnone hkey kind place
      exact add?_top hroot (h.heading_nil hh) (assign?_direct (by decide) hfresh) hes' hh
  | first hh hnone hf =>
    cases hst with
    | dotted houter hfield =>
      obtain ⟨hfresh, hes'⟩ := hes.addTable hnone houter none .dotted (.cons hfield .nil)
      exact add?_top hroot (h.heading_nil hh) (assign?_first hfresh) hes' hh
  | next hh hsome hf hfresh =>
    cases hst with
    | dotted houter hfield =>
      obtain ⟨inner, fs', hold, hfs⟩ := (hsome ▸ hes.table _).eq_some
      have hnew := hfs.not_mem_names hfield.1 hfresh
      obtain ⟨es', hassign, hes'⟩ := assign?_next (houter ▸ hold) hnew
      exact add?_top hroot (h.heading_nil hh) hassign
        (hes.growTable inner .dotted (hfs.concat hfield) (houter ▸ hes')) hh
  | inline hh hnone hf hnodup =>
    cases hst with
    | inline place hkey hinner =>
      obtain ⟨hfresh, hes'⟩ := hes.addTable hnone hkey (some place) .braced hinner
      exact add?_top hroot (h.heading_nil hh) (assign?_direct (by decide) hfresh) hes' hh
  | header hnone =>
    cases hst with
    | @header _ key place hkey =>
      obtain ⟨hfresh, hes'⟩ := hes.addTable hnone hkey (some place) .header .nil
      refine ⟨⟨_, [key]⟩, ?_, ⟨span, _, rfl, hes'.under _⟩, by simp [hkey]⟩
      rw [Draft.add?, hroot, Node.edit?, open?_new hfresh]
      rfl
  | field hh hsome hf hfresh =>
    cases hst with
    | field hfield =>
      obtain ⟨outer, hd, houter⟩ := h.heading_one hh
      obtain ⟨inner, fs', hold, hfs⟩ := (hsome ▸ hes.table _).eq_some
      have hnew := hfs.not_mem_names hfield.1 hfresh
      obtain ⟨es', inner', hedit, hes'⟩ := edit?_header (houter ▸ hold) hnew
      refine ⟨{ d with root := .table (some span) .header es' }, ?_, ⟨span, es', rfl,
        hes.growTable inner' .header (hfs.concat hfield) (houter ▸ hes')⟩, hheading⟩
      rw [Draft.add?, hroot, hd]
      exact congrArg (Option.bind · _) hedit

lemma fits_run {ls : List Line} {sts : List Statement} (hrun : o.Run ls p)
    (hsts : List.Forall₂ Line.Means ls sts) (h : o.Fits d) :
    ∃ d', sts.foldlM Draft.add? d = some d' ∧ p.Fits d' := by
  induction hrun generalizing sts d with
  | nil =>
    cases hsts
    exact ⟨d, rfl, h⟩
  | cons hstep _ ih =>
    cases hsts with
    | cons hst hsts =>
      obtain ⟨d', hadd, hd⟩ := fits_step h hstep hst
      obtain ⟨d'', hrest, hd'⟩ := ih hsts hd
      refine ⟨d'', ?_, hd'⟩
      rw [List.foldlM_cons, hadd]
      exact hrest

lemma fits_start (t : Text) : Outline.Fits {} (.start t) :=
  ⟨⟨_, [], rfl, List.nodup_nil, fun _ h => absurd h List.not_mem_nil, .absent, fun _ => .absent⟩,
    rfl⟩

lemma parse?_of_run {ls : List Line} {t : Text} (hrun : Outline.Run {} ls o)
    (h : Document ls t) : ∃ span es, parse? t = some (.table span .header es) ∧ o.Shows es := by
  obtain ⟨sts, hsts, hparse⟩ := parse?_of_document h (isPlain_of_run hrun)
  obtain ⟨d, hfold, hd⟩ := fits_run hrun hsts (fits_start t)
  obtain ⟨span, es, hroot, hes⟩ := hd.shows_root
  refine ⟨some span, es, ?_, hes⟩
  rw [hparse, hfold, Option.map_some, hroot]

end PathSieve.Settings
