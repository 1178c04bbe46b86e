import PathSieve.Proofs.Settings.Account
import PathSieve.Proofs.Text.Utf8.Decode
import PathSieve.Proofs.Toml.Sound
import PathSieve.Proofs.Tree.World
import PathSieve.Settings.Discover

/-! Loading is strict. Settings that are loaded account for their document, unless it writes a
section as an array that has more items than the section has names: the items left over are
dropped. -/

namespace PathSieve.Settings

open Toml Toml.Layout
open Policy (Kind)

section Nodes

variable {node : Node}

lemma text_ok {s : Text} : text node = .ok s ↔ ∃ span, node = .scalar span (.string s) := by
  constructor
  · intro h
    unfold text at h
    split at h
    · cases h
      exact ⟨_, rfl⟩
    · cases h
  · rintro ⟨span, rfl⟩
    rfl

lemma isList_of_texts (hnode : node.Sound) {ss : List Text} (h : texts node = .ok ss) :
    IsList node ss := by
  cases hnode with
  | scalar | table => cases h
  | array span =>
    rw [texts, within_ok, Except.mapM_ok] at h
    exact ⟨span, _, rfl, h.imp fun _ _ => text_ok.mp⟩
  | tables hne _ htables =>
    obtain ⟨span, origin, es, items, rfl⟩ := exists_table hne htables
    rw [texts, within_ok, Except.mapM_ok] at h
    cases h with
    | cons h => cases h

lemma isNothing_of_nothing (hnode : node.Sound) (h : nothing node = .ok ()) : IsNothing node := by
  cases hnode with
  | scalar span value => cases value <;> cases h
  | @array span items =>
    cases items with
    | nil => exact .array span
    | cons => cases h
  | @table span origin es =>
    cases es with
    | nil => exact .table span origin
    | cons => cases h
  | @tables items hne =>
    cases items with
    | nil => exact absurd rfl hne
    | cons => cases h

lemma gives_of_kind (hnode : node.Sound) {kind : Kind} (h : Settings.kind node = .ok kind) :
    GivesKind node kind := by
  cases hnode with
  | scalar span value =>
    cases value with
    | string s =>
      obtain rfl := kindNamed_ok.mp h
      exact .name span kind
    | _ => cases h
  | array | tables => cases h
  | @table span origin es _ hes =>
    match es with
    | [] => cases h
    | [(key, value)] =>
      simp only [Settings.kind, within_ok, Except.bind_ok] at h
      obtain ⟨k, hk, ⟨⟩, hnothing, hkind⟩ := h
      cases hkind
      exact .variant span origin (kindNamed_ok.mp hk)
        (isNothing_of_nothing (hes _ List.mem_cons_self) hnothing)
    | _ :: _ :: _ => cases h

def IsSurplus (names : List Text) : Node → Prop
  | .array _ items => names.length < items.length
  | _ => False

variable {names : List Text} {fs : List Field}

lemma areFields_of_ok {es : Entries} (hes : ∀ e ∈ es, e.2.Sound)
    (h : List.Forall₂ (fun (e : Key × Node) f =>
      (if names.contains e.1.name then (field texts e.1 e.2).map (e.1.name, ·)
        else .error ⟨some e.1.span, .unknownField e.1.name names⟩ : Decoded Field) = .ok f) es fs) :
    AreFields es fs ∧ ∀ f ∈ fs, f.1 ∈ names := by
  induction h with
  | nil => exact ⟨.nil, by simp⟩
  | cons hentry _ ih =>
    obtain ⟨he, hes⟩ := List.forall_mem_cons.mp hes
    obtain ⟨hfields, hnames⟩ := ih hes
    split_ifs at hentry with hname
    obtain ⟨ss, hss, rfl⟩ := Except.map_ok.mp hentry
    refine ⟨.cons ⟨rfl, isList_of_texts he (field_ok.mp hss)⟩ hfields, ?_⟩
    exact List.forall_mem_cons.mpr ⟨List.contains_iff_mem.mp hname, hnames⟩

lemma gives_of_lists (hnode : node.Sound) (hnames : names ≠ []) {title : String}
    (h : lists title names node = .ok fs) (hsurplus : ¬ IsSurplus names node) :
    GivesLists names node fs := by
  cases hnode with
  | scalar span value => cases value <;> cases h
  | array span hitems =>
    rw [lists, within_ok, Except.mapM_ok] at h
    have hpairs := h.imp fun _ _ hitem => item_ok.mp hitem
    obtain ⟨hread, hprefix⟩ := (forall₂_zip (p := fun item ss => texts item = .ok ss)).mp
      ⟨hpairs, not_lt.mp hsurplus⟩
    refine .array span ?_ hprefix
    exact ((List.forall₂_and_left _ _).mpr ⟨hitems, hread⟩).imp fun _ _ h => isList_of_texts h.1 h.2
  | table span origin _ hes =>
    rw [lists, within_ok, Except.mapM_ok] at h
    obtain ⟨hfields, hnames⟩ := areFields_of_ok hes h
    exact .table span origin hfields hnames
  | tables hne _ htables =>
    obtain ⟨name, names, rfl⟩ := List.exists_cons_of_ne_nil hnames
    obtain ⟨span, origin, es, items, rfl⟩ := exists_table hne htables
    rw [lists, within_ok, Except.mapM_ok] at h
    cases h with
    | cons h => cases h

lemma GivesLists.not_isSurplus (h : GivesLists names node fs) : ¬ IsSurplus names node := by
  cases h with
  | table => exact id
  | array span hitems hnames =>
    have hlength := hnames.length_le
    rw [List.length_map, ← hitems.length_eq] at hlength
    exact not_lt.mpr hlength

lemma GivesLists.mem_names (h : GivesLists names node fs) : ∀ f ∈ fs, f.1 ∈ names := by
  cases h with
  | table _ _ _ hfs => exact hfs
  | array _ _ hnames => exact fun f hf => hnames.subset (List.mem_map_of_mem hf)

lemma GivesLists.nodup (hnode : node.Sound) (hnames : names.Nodup) (h : GivesLists names node fs) :
    (fs.map (·.1)).Nodup := by
  cases h with
  | table _ _ hes _ => exact hes.names ▸ (sound_table.mp hnode).1
  | array _ _ hprefix => exact hprefix.sublist.nodup hnames

end Nodes

section Parts

lemma fieldNames_ne_nil (kind : Kind) : fieldNames kind ≠ [] := by cases kind <;> decide

lemma mem_iff_lookup {fs : List Field} (h : (fs.map (·.1)).Nodup) {f : Field} :
    f ∈ fs ↔ fs.lookup f.1 = some f.2 := by
  induction fs with
  | nil => simp
  | cons g fs ih =>
    rw [List.map_cons, List.nodup_cons] at h
    rw [List.mem_cons, List.lookup_cons]
    by_cases hname : f.1 = g.1
    · have hnot : f ∉ fs := fun hf => h.1 (hname ▸ List.mem_map_of_mem hf)
      rw [or_iff_left hnot, beq_iff_eq.mpr hname, Option.some.injEq, Prod.ext_iff]
      exact ⟨fun he => he.2.symm, fun he => ⟨hname, he.symm⟩⟩
    · have hnot : f ≠ g := fun he => hname (congrArg _ he)
      rw [or_iff_right hnot, beq_eq_false_iff_ne.mpr hname, ih h.2]

lemma lookup_listed {kind : Kind} {name : Text} (h : name ∈ fieldNames kind) (fs : List Field)
    (into : Settings) : ((listed kind fs into).fields kind).lookup name = fs.lookup name := by
  cases kind with
  | denylist =>
    obtain ⟨hexact, hprefixes, hsuffixes⟩ := denylist_fields (listed .denylist fs into)
    simp only [fieldNames, listNames, List.map_cons, List.map_nil, List.mem_cons,
      List.not_mem_nil, or_false] at h
    rcases h with rfl | rfl | rfl
    · exact hexact
    · exact hprefixes
    · exact hsuffixes
  | allowlist =>
    obtain rfl := List.mem_singleton.mp h
    exact allowlist_fields (listed .allowlist fs into)

lemma perm_listed {kind : Kind} {fs : List Field} (hnodup : (fs.map (·.1)).Nodup)
    (hnames : ∀ f ∈ fs, f.1 ∈ fieldNames kind) (into : Settings) :
    fs.Perm ((listed kind fs into).fields kind) := by
  have hnodup' := nodup_fields (listed kind fs into) kind
  refine (List.perm_ext_iff_of_nodup hnodup.of_map hnodup'.of_map).mpr fun f => ?_
  rw [mem_iff_lookup hnodup, mem_iff_lookup hnodup']
  constructor
  · intro h
    rw [lookup_listed (hnames f ((mem_iff_lookup hnodup).mpr h)), h]
  · intro h
    rw [← lookup_listed (mem_fieldNames ((mem_iff_lookup hnodup').mpr h)) fs into, h]

lemma fields_listed_of_ne {kind other : Kind} (h : other ≠ kind) (fs : List Field)
    (into : Settings) : (listed kind fs into).fields other = into.fields other := by
  cases kind with
  | denylist =>
    cases other with
    | denylist => exact absurd rfl h
    | allowlist => rfl
  | allowlist =>
    cases other with
    | denylist => rfl
    | allowlist => exact absurd rfl h

lemma policy_listed (kind : Kind) (fs : List Field) (into : Settings) :
    (listed kind fs into).policy = into.policy := by cases kind <;> rfl

end Parts

section Entries

variable {settings into : Settings} {es : Entries} {e : Key × Node}

lemma name_of_entry (h : entry into e = .ok settings) :
    e.1.name = policyName ∨ ∃ kind : Kind, e.1.name = kind.name := by
  obtain ⟨key, node⟩ := e
  rw [← mem_sectionNames]
  by_contra hname
  simp only [sectionNames, List.mem_cons, List.not_mem_nil, or_false, not_or] at hname
  rw [entry, if_neg hname.1, if_neg hname.2.1, if_neg hname.2.2] at h
  cases h

lemma holds_of_entry (hnode : e.2.Sound)
    (hsurplus : ∀ kind : Kind, e.1.name = kind.name → ¬ IsSurplus (fieldNames kind) e.2)
    (h : entry into e = .ok settings) : settings.Holds e := by
  obtain ⟨key, node⟩ := e
  rcases name_of_entry h with hname | ⟨kind, hname⟩
  · rw [entry_policy into hname, Except.map_ok] at h
    obtain ⟨kind, hkind, rfl⟩ := h
    exact .policy hname (gives_of_kind hnode (field_ok.mp hkind)) rfl
  · rw [entry_lists into hname, Except.map_ok] at h
    obtain ⟨fs, hfs, rfl⟩ := h
    have hgives := gives_of_lists hnode (fieldNames_ne_nil kind) (field_ok.mp hfs)
      (hsurplus kind hname)
    exact .lists hname hgives
      (perm_listed (hgives.nodup hnode (nodup_fieldNames kind)) hgives.mem_names into)

lemma parts_of_entry (h : entry into e = .ok settings) :
    (e.1.name ≠ policyName → settings.policy = into.policy) ∧
      ∀ kind : Kind, e.1.name ≠ kind.name → settings.fields kind = into.fields kind := by
  obtain ⟨key, node⟩ := e
  rcases name_of_entry h with hname | ⟨kind, hname⟩
  · rw [entry_policy into hname, Except.map_ok] at h
    obtain ⟨kind, -, rfl⟩ := h
    exact ⟨fun hne => absurd hname hne, fun other _ => by cases other <;> rfl⟩
  · rw [entry_lists into hname, Except.map_ok] at h
    obtain ⟨fs, -, rfl⟩ := h
    refine ⟨fun _ => policy_listed kind fs into, fun other hne => ?_⟩
    exact fields_listed_of_ne (fun he => hne (by rw [he]; exact hname)) fs into

lemma parts_of_foldlM (h : es.foldlM entry into = .ok settings) :
    (policyName ∉ es.names → settings.policy = into.policy) ∧
      ∀ kind : Kind, kind.name ∉ es.names → settings.fields kind = into.fields kind := by
  induction es generalizing into with
  | nil =>
    cases h
    exact ⟨fun _ => rfl, fun _ _ => rfl⟩
  | cons e es ih =>
    rw [List.foldlM_cons, Except.bind_ok] at h
    obtain ⟨next, hentry, hrest⟩ := h
    obtain ⟨hpolicy, hfields⟩ := parts_of_entry hentry
    obtain ⟨hpolicy', hfields'⟩ := ih hrest
    simp only [Entries.names, List.map_cons, List.mem_cons, not_or]
    exact ⟨fun hne => (hpolicy' hne.2).trans (hpolicy (Ne.symm hne.1)),
      fun kind hne => (hfields' kind hne.2).trans (hfields kind (Ne.symm hne.1))⟩

lemma Holds.of_parts {other : Settings} (h : settings.Holds e)
    (hpolicy : e.1.name = policyName → other.policy = settings.policy)
    (hfields : ∀ kind : Kind, e.1.name = kind.name → other.fields kind = settings.fields kind) :
    other.Holds e := by
  cases h with
  | policy hname hkind hset => exact .policy hname hkind ((hpolicy hname).trans hset)
  | lists hname hlists hset => exact .lists hname hlists (hfields _ hname ▸ hset)

/-- A section is an array that has items left over when every name has one. -/
def HasSurplus (es : Entries) : Prop :=
  ∃ e ∈ es, ∃ kind : Kind, e.1.name = kind.name ∧ IsSurplus (fieldNames kind) e.2

lemma holds_of_foldlM (hes : es.Sound) (hsurplus : ¬ HasSurplus es)
    (h : es.foldlM entry into = .ok settings) : ∀ e ∈ es, settings.Holds e := by
  induction es generalizing into with
  | nil => simp
  | cons e es ih =>
    rw [List.foldlM_cons, Except.bind_ok] at h
    obtain ⟨next, hentry, hrest⟩ := h
    obtain ⟨hnodup, hsound⟩ := hes
    rw [Entries.names, List.map_cons, List.nodup_cons] at hnodup
    obtain ⟨hnode, hsound⟩ := List.forall_mem_cons.mp hsound
    have hfirst : next.Holds e := holds_of_entry hnode
      (fun kind hname hs => hsurplus ⟨e, List.mem_cons_self, kind, hname, hs⟩) hentry
    have hsurplus' : ¬ HasSurplus es := by
      rintro ⟨e', he', hs⟩
      exact hsurplus ⟨e', List.mem_cons_of_mem _ he', hs⟩
    refine List.forall_mem_cons.mpr ⟨?_, ih ⟨hnodup.2, hsound⟩ hsurplus' hrest⟩
    -- the entries that follow have other names
    obtain ⟨hpolicy, hfields⟩ := parts_of_foldlM hrest
    exact hfirst.of_parts (fun hname => hpolicy (hname ▸ hnodup.1))
      fun kind hname => hfields kind (hname ▸ hnodup.1)

lemma Accounts.not_hasSurplus (h : settings.Accounts es) : ¬ HasSurplus es := by
  rintro ⟨e, he, kind, hname, hs⟩
  cases h.entries e he with
  | policy hpolicy => exact policyName_ne kind (hpolicy.symm.trans hname)
  | lists hname' hlists =>
    obtain rfl := name_injective (hname.symm.trans hname')
    exact hlists.not_isSurplus hs

lemma accounts_iff (hes : es.Sound) (span : Option Span) (origin : Origin) :
    settings.Accounts es ↔ ofNode (.table span origin es) = .ok settings ∧ ¬ HasSurplus es := by
  constructor
  · exact fun h => ⟨ofNode_of_accounts h span origin, h.not_hasSurplus⟩
  · rintro ⟨h, hsurplus⟩
    obtain ⟨hpolicy, hfields⟩ := parts_of_foldlM h
    refine ⟨holds_of_foldlM hes hsurplus h, hpolicy, fun kind hname => ?_⟩
    rw [hfields kind hname]
    cases kind <;> rfl

end Entries

def IsDocument (content : Bytes) (es : Entries) : Prop :=
  ∃ t span origin, Utf8.decode? content = some t ∧ parse? t = some (.table span origin es)

variable {diagnose : Text → Diagnosis} {world : World} {path content : Bytes} {es : Entries}

lemma load_of_isDocument (hread : world.read path = .ok content) (h : IsDocument content es) :
    es.Sound ∧ ∃ t span origin, load diagnose world path =
      ((ofNode (.table span origin es)).mapError (.mismatch t)).mapError
        (.settingsInvalid path) := by
  obtain ⟨t, span, origin, hdecode, hparse⟩ := h
  refine ⟨soundTable.mp (soundTable_parse? hparse), t, span, origin, ?_⟩
  simp only [load, hread, ofBytes, hdecode, ofText, hparse]

lemma exists_isDocument (hread : world.read path = .ok content) {settings : Settings}
    (h : load diagnose world path = .ok settings) : ∃ es, IsDocument content es := by
  simp only [load, hread, ofBytes] at h
  split at h
  · cases h
  · next t hdecode =>
    rw [Except.mapError_ok, ofText] at h
    split at h
    · cases h
    · next node hparse =>
      obtain ⟨span, origin, es, rfl, -⟩ := (soundTable_parse? hparse).exists
      exact ⟨es, t, span, origin, hdecode, hparse⟩

theorem load_strict (hread : world.read path = .ok content) :
    (∀ settings, load diagnose world path = .ok settings →
      ∃ es, IsDocument content es ∧ (settings.Accounts es ↔ ¬ HasSurplus es)) ∧
    ∀ es, IsDocument content es →
      (∀ settings : Settings, settings.Accounts es → load diagnose world path = .ok settings) ∧
      ((∀ settings : Settings, ¬ settings.Accounts es) → ¬ HasSurplus es →
        ∃ fault, load diagnose world path = .error (.settingsInvalid path fault)) := by
  refine ⟨fun settings h => ?_, fun es hdoc => ?_⟩
  · obtain ⟨es, hdoc⟩ := exists_isDocument hread h
    obtain ⟨hes, t, span, origin, hload⟩ := load_of_isDocument hread hdoc
    rw [hload, Except.mapError_ok, Except.mapError_ok] at h
    exact ⟨es, hdoc, (accounts_iff hes span origin).trans (and_iff_right h)⟩
  · obtain ⟨hes, t, span, origin, hload⟩ := load_of_isDocument hread hdoc
    rw [hload]
    refine ⟨fun settings h => ?_, fun hnone hsurplus => ?_⟩
    · rw [Except.mapError_ok, Except.mapError_ok]
      exact ofNode_of_accounts h span origin
    · cases hnode : ofNode (.table span origin es) with
      | ok settings => exact absurd ((accounts_iff hes span origin).mpr ⟨hnode, hsurplus⟩) (hnone _)
      | error complaint => exact ⟨_, rfl⟩

lemma IsDocument.unique {es' : Entries} (h : IsDocument content es) (h' : IsDocument content es') :
    es = es' := by
  obtain ⟨t, span, origin, hdecode, hparse⟩ := h
  obtain ⟨t', span', origin', hdecode', hparse'⟩ := h'
  obtain rfl := Option.some.inj (hdecode.symm.trans hdecode')
  have hnode := Option.some.inj (hparse.symm.trans hparse')
  injection hnode

def orderedText : Text := "policy=\x7bknown-paths=[]\x7d\nknown-paths=[['a']]".toList

def orderedSettings : Settings := { policy := some .allowlist, patterns := some [['a']] }

def orderedEntries : Entries :=
  [(⟨policyName, ⟨43, 37⟩⟩, .table (some ⟨36, 20⟩) .braced
      [(⟨Kind.allowlist.name, ⟨35, 24⟩⟩, .array ⟨23, 21⟩ [])]),
    (⟨Kind.allowlist.name, ⟨19, 8⟩⟩,
      .array ⟨7, 0⟩ [.array ⟨6, 1⟩ [.scalar ⟨5, 2⟩ (.string ['a'])]])]

lemma isDocument_ordered : IsDocument (Utf8.encode orderedText) orderedEntries :=
  ⟨orderedText, some ⟨43, 0⟩, .header, Utf8.decode?_encode _, rfl⟩

lemma load_holding {t : Text} {settings : Settings} (h : ofText diagnose t = .ok settings) :
    load diagnose (World.holding (Utf8.encode t)) [0x63] = .ok settings := by
  simp only [load, World.read_holding, ofBytes, Utf8.decode?_encode, h, Except.mapError]

lemma not_hasSurplus_ordered : ¬ HasSurplus orderedEntries := by
  rintro ⟨e, he, kind, hname, hs⟩
  simp only [orderedEntries, List.mem_cons, List.not_mem_nil, or_false] at he
  rcases he with rfl | rfl
  · exact policyName_ne kind hname
  · have hkind : Kind.allowlist = kind := name_injective hname
    subst hkind
    exact Nat.lt_irrefl 1 hs

theorem load_strict_ordered :
    (World.holding (Utf8.encode orderedText)).read [0x63] = .ok (Utf8.encode orderedText) ∧
      (∀ diagnose,
        load diagnose (World.holding (Utf8.encode orderedText)) [0x63] = .ok orderedSettings) ∧
      IsDocument (Utf8.encode orderedText) orderedEntries ∧
      orderedSettings.Accounts orderedEntries := by
  have hread := World.read_holding (Utf8.encode orderedText)
  have hload (diagnose : Text → Diagnosis) :
      load diagnose (World.holding (Utf8.encode orderedText)) [0x63] = .ok orderedSettings :=
    load_holding rfl
  obtain ⟨es, hdoc, haccounts⟩ :=
    (load_strict hread).1 orderedSettings (hload fun _ => ⟨⟨0, 0⟩, []⟩)
  obtain rfl := hdoc.unique isDocument_ordered
  exact ⟨hread, hload, hdoc, haccounts.mpr not_hasSurplus_ordered⟩

def droppedText : Text := "known-paths=[['a'],'b']".toList

def droppedEntries : Entries :=
  [(⟨Kind.allowlist.name, ⟨23, 12⟩⟩, .array ⟨11, 0⟩
    [.array ⟨10, 5⟩ [.scalar ⟨9, 6⟩ (.string ['a'])], .scalar ⟨4, 1⟩ (.string ['b'])])]

lemma isDocument_dropped : IsDocument (Utf8.encode droppedText) droppedEntries :=
  ⟨droppedText, some ⟨23, 0⟩, .header, Utf8.decode?_encode _, rfl⟩

-- A section of one name has two items in this document, and the second one is dropped.
theorem not_load_strict :
    ¬ ∀ (diagnose : Text → Diagnosis) (world : World) (path content : Bytes) (settings : Settings),
      world.read path = .ok content → load diagnose world path = .ok settings →
      ∃ es, IsDocument content es ∧ settings.Accounts es := by
  intro h
  have hload (diagnose : Text → Diagnosis) :
      load diagnose (World.holding (Utf8.encode droppedText)) [0x63] =
        .ok { patterns := some [['a']] } := load_holding rfl
  obtain ⟨es, hdoc, haccounts⟩ :=
    h (fun _ => ⟨⟨0, 0⟩, []⟩) _ _ _ _ (World.read_holding _) (hload _)
  obtain rfl := hdoc.unique isDocument_dropped
  have hsurplus : HasSurplus droppedEntries :=
    ⟨_, List.mem_cons_self, .allowlist, rfl, Nat.lt_add_one 1⟩
  exact haccounts.not_hasSurplus hsurplus

end PathSieve.Settings
