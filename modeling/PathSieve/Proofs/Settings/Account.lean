import PathSieve.Proofs.Settings.Outline

namespace PathSieve.Settings

open Toml Toml.Layout
open Policy (Kind)

inductive IsNothing : Node → Prop
  | array (span : Span) : IsNothing (.array span [])
  | table (span : Option Span) (origin : Origin) : IsNothing (.table span origin [])

inductive GivesKind : Node → Kind → Prop
  | name (span : Span) (kind : Kind) : GivesKind (.scalar span (.string kind.name)) kind
  | variant {key : Key} {value : Node} {kind : Kind} (span : Option Span) (origin : Origin) :
      key.name = kind.name → IsNothing value →
      GivesKind (.table span origin [(key, value)]) kind

/-- The node has these lists in it, under the names or in their order, and has no others. -/
inductive GivesLists (names : List Text) : Node → List Field → Prop
  | table {es : Entries} {fs : List Field} (span : Option Span) (origin : Origin) :
      AreFields es fs → (∀ f ∈ fs, f.1 ∈ names) → GivesLists names (.table span origin es) fs
  | array {items : List Node} {fs : List Field} (span : Span) :
      List.Forall₂ (fun item f => IsList item f.2) items fs → fs.map (·.1) <+: names →
      GivesLists names (.array span items) fs

inductive Holds (settings : Settings) : Key × Node → Prop
  | policy {key : Key} {node : Node} {kind : Kind} : key.name = policyName →
      GivesKind node kind → settings.policy = some kind → Holds settings (key, node)
  | lists {key : Key} {node : Node} {fs : List Field} {kind : Kind} : key.name = kind.name →
      GivesLists (fieldNames kind) node fs → fs.Perm (settings.fields kind) →
      Holds settings (key, node)

/-- The settings hold every entry of the document, and have no part that is in none. -/
structure Accounts (settings : Settings) (es : Entries) : Prop where
  entries : ∀ e ∈ es, settings.Holds e
  policy : policyName ∉ es.names → settings.policy = none
  fields (kind : Kind) : kind.name ∉ es.names → settings.fields kind = []

variable {settings : Settings}

lemma lookup_of_perm {fs gs : List Field} (h : fs.Perm gs) (hgs : (gs.map (·.1)).Nodup)
    (name : Text) : fs.lookup name = gs.lookup name := by
  induction h with
  | nil => rfl
  | cons f _ ih =>
    rw [List.map_cons, List.nodup_cons] at hgs
    rw [List.lookup_cons, List.lookup_cons, ih hgs.2]
  | swap f g fs =>
    simp only [List.map_cons, List.nodup_cons, List.mem_cons, not_or] at hgs
    rw [List.lookup_cons, List.lookup_cons, List.lookup_cons, List.lookup_cons]
    by_cases hf : name = f.1
    · have hg : (f.1 == g.1) = false := by simpa using hgs.1.1
      simp [hf, hg]
    · have hf' : (name == f.1) = false := by simpa using hf
      rw [hf']
  | trans h1 h2 ih1 ih2 => rw [ih1 ((h2.map _).nodup_iff.mpr hgs), ih2 hgs]

lemma lookup_fields {fs : List Field} {kind : Kind} (h : fs.Perm (settings.fields kind))
    (name : Text) : fs.lookup name = (settings.fields kind).lookup name :=
  lookup_of_perm h (nodup_fields settings kind) name

lemma fieldNames_of_perm {fs : List Field} {kind : Kind} (h : fs.Perm (settings.fields kind)) :
    ∀ f ∈ fs, f.1 ∈ fieldNames kind :=
  fun _ hf => mem_fieldNames (h.mem_iff.mp hf)

lemma denylist_fields (settings : Settings) :
    (settings.fields .denylist).lookup "exact".toList = settings.exact ∧
    (settings.fields .denylist).lookup "prefixes".toList = settings.prefixes ∧
    (settings.fields .denylist).lookup "suffixes".toList = settings.suffixes := by
  obtain ⟨policy, exact, prefixes, suffixes, patterns⟩ := settings
  cases exact <;> cases prefixes <;> cases suffixes <;> exact ⟨rfl, rfl, rfl⟩

lemma allowlist_fields (settings : Settings) :
    (settings.fields .allowlist).lookup "patterns".toList = settings.patterns := by
  obtain ⟨policy, exact, prefixes, suffixes, patterns⟩ := settings
  cases patterns <;> rfl

section Nodes

variable {α : Type} {key : Key} {node : Node}

@[simp] lemma within_ok {span : Option Span} {decoded : Decoded α} {a : α} :
    within span decoded = .ok a ↔ decoded = .ok a :=
  Except.mapError_ok

@[simp] lemma field_ok {decode : Node → Decoded α} {a : α} :
    field decode key node = .ok a ↔ decode node = .ok a := within_ok

lemma ofName?_eq_some {name : Text} {kind : Kind} :
    Kind.ofName? name = some kind ↔ name = kind.name := by
  constructor
  · intro h
    rw [Kind.ofName?] at h
    split_ifs at h with hdeny hallow
    · cases h
      exact hdeny
    · cases h
      exact hallow
  · rintro rfl
    exact Kind.ofName?_name kind

lemma kindNamed_ok {span : Span} {name : Text} {kind : Kind} :
    kindNamed span name = .ok kind ↔ name = kind.name := by
  rw [← ofName?_eq_some, kindNamed]
  cases Kind.ofName? name <;> simp

lemma kind_of_gives {kind : Kind} (h : GivesKind node kind) : Settings.kind node = .ok kind := by
  cases h with
  | name => exact kindNamed_ok.mpr rfl
  | variant span origin hkey hvalue =>
    rw [Settings.kind, within_ok, kindNamed_ok.mpr hkey]
    cases hvalue <;> rfl

lemma forall₂_zip {p : Node → List Text → Prop} {names : List Text} {items : List Node}
    {fs : List Field} :
    (List.Forall₂ (fun e f => p e.2 f.2 ∧ e.1 = f.1) (names.zip items) fs ∧
      items.length ≤ names.length) ↔
      List.Forall₂ (fun item f => p item f.2) items fs ∧ fs.map (·.1) <+: names := by
  induction items generalizing names fs with
  | nil =>
    rw [List.zip_nil_right, List.forall₂_nil_left_iff, List.forall₂_nil_left_iff]
    constructor
    · rintro ⟨rfl, -⟩
      exact ⟨rfl, List.nil_prefix⟩
    · rintro ⟨rfl, -⟩
      exact ⟨rfl, Nat.zero_le _⟩
  | cons item items ih =>
    cases names with
    | nil =>
      refine iff_of_false (fun h => absurd h.2 (by simp)) ?_
      rintro ⟨hitems, hnames⟩
      cases hitems
      simp at hnames
    | cons name names =>
      rw [List.zip_cons_cons, List.forall₂_cons_left_iff, List.forall₂_cons_left_iff,
        List.length_cons, List.length_cons, Nat.add_le_add_iff_right]
      constructor
      · rintro ⟨⟨f, fs, ⟨hp, rfl⟩, hrest, rfl⟩, hlength⟩
        obtain ⟨hitems, hnames⟩ := ih.mp ⟨hrest, hlength⟩
        exact ⟨⟨f, fs, hp, hitems, rfl⟩, List.cons_prefix_cons.mpr ⟨rfl, hnames⟩⟩
      · rintro ⟨⟨f, fs, hp, hitems, rfl⟩, hnames⟩
        obtain ⟨hname, hnames⟩ := List.cons_prefix_cons.mp hnames
        obtain ⟨hrest, hlength⟩ := ih.mpr ⟨hitems, hnames⟩
        exact ⟨⟨f, fs, ⟨hp, hname.symm⟩, hrest, rfl⟩, hlength⟩

lemma item_ok {e : Text × Node} {f : Field} :
    (texts e.2).map (e.1, ·) = .ok f ↔ texts e.2 = .ok f.2 ∧ e.1 = f.1 := by
  rw [Except.map_ok]
  constructor
  · rintro ⟨ss, hss, rfl⟩
    exact ⟨hss, rfl⟩
  · rintro ⟨hss, hname⟩
    exact ⟨f.2, hss, Prod.ext hname rfl⟩

lemma lists_of_gives (title : String) {names : List Text} {fs : List Field}
    (h : GivesLists names node fs) : lists title names node = .ok fs := by
  cases h with
  | @table es _ span origin hes hfs =>
    rw [lists, within_ok, Except.mapM_ok]
    induction hes with
    | nil => exact .nil
    | @cons e f es fs he _ ih =>
      obtain ⟨hf, hfs⟩ := List.forall_mem_cons.mp hfs
      refine .cons ?_ (ih hfs)
      have hname : names.contains e.1.name := by simpa [he.1] using hf
      rw [if_pos hname, Except.map_ok]
      exact ⟨f.2, field_ok.mpr (texts_of_isList he.2), by rw [he.1]⟩
  | array span hitems hnames =>
    have hread := hitems.imp fun _ _ hitem => texts_of_isList hitem
    rw [lists, within_ok, Except.mapM_ok]
    have hpairs := (forall₂_zip (p := fun item ss => texts item = .ok ss)).mpr ⟨hread, hnames⟩
    exact hpairs.1.imp fun _ _ h => item_ok.mpr h

end Nodes

def listed (kind : Kind) (found : List Field) (into : Settings) : Settings :=
  match kind with
  | .denylist =>
    { into with
      exact := found.lookup "exact".toList
      prefixes := found.lookup "prefixes".toList
      suffixes := found.lookup "suffixes".toList }
  | .allowlist => { into with patterns := found.lookup "patterns".toList }

def title : Kind → String
  | .denylist => "DirectoryDenylistConfig"
  | .allowlist => "KnownPathsConfig"

section Entries

variable {key : Key} {node : Node} (into : Settings)

lemma entry_policy (h : key.name = policyName) :
    entry into (key, node) =
      (field Settings.kind key node).map fun kind => { into with policy := some kind } := by
  have hname : key.name = "policy".toList := h
  rw [entry, if_pos hname]
  exact Except.bind_pure _

lemma entry_lists {kind : Kind} (h : key.name = kind.name) :
    entry into (key, node) =
      (field (lists (title kind) (fieldNames kind)) key node).map (listed kind · into) := by
  have hne : key.name ≠ "policy".toList := h ▸ (policyName_ne kind).symm
  rw [entry, if_neg hne]
  cases kind with
  | denylist =>
    rw [if_pos h]
    exact Except.bind_pure _
  | allowlist =>
    have hne' : key.name ≠ Kind.denylist.name := h ▸ (by decide)
    rw [if_neg hne', if_pos h]
    exact Except.bind_pure _

end Entries

def take (settings : Settings) (name : Text) (into : Settings) : Settings :=
  if name = policyName then { into with policy := settings.policy }
  else if name = Kind.denylist.name then
    { into with
      exact := settings.exact, prefixes := settings.prefixes, suffixes := settings.suffixes }
  else if name = Kind.allowlist.name then { into with patterns := settings.patterns }
  else into

lemma take_name (kind : Kind) (into : Settings) :
    settings.take kind.name into = listed kind (settings.fields kind) into := by
  rw [take, if_neg (policyName_ne kind).symm]
  cases kind with
  | denylist =>
    obtain ⟨hexact, hprefixes, hsuffixes⟩ := denylist_fields settings
    rw [if_pos rfl, listed, hexact, hprefixes, hsuffixes]
  | allowlist =>
    rw [if_neg (by decide), if_pos rfl, listed, allowlist_fields]

lemma listed_of_perm {kind : Kind} {fs : List Field} (h : fs.Perm (settings.fields kind))
    (into : Settings) : listed kind fs into = settings.take kind.name into := by
  rw [take_name]
  cases kind <;> simp only [listed, lookup_fields h]

lemma entry_of_holds {e : Key × Node} (h : settings.Holds e) (into : Settings) :
    entry into e = .ok (settings.take e.1.name into) := by
  cases h with
  | policy hname hkind hpolicy =>
    rw [entry_policy into hname, Except.map_ok]
    refine ⟨_, field_ok.mpr (kind_of_gives hkind), ?_⟩
    rw [take, if_pos hname, hpolicy]
  | lists hname hlists hset =>
    rw [entry_lists into hname, Except.map_ok]
    refine ⟨_, field_ok.mpr (lists_of_gives _ hlists), ?_⟩
    rw [listed_of_perm hset]
    exact congrArg (settings.take · into) hname.symm

lemma foldlM_entry {es : Entries} (h : ∀ e ∈ es, settings.Holds e) (into : Settings) :
    es.foldlM entry into = .ok (es.names.foldl (fun s name => settings.take name s) into) := by
  induction es generalizing into with
  | nil => rfl
  | cons e es ih =>
    obtain ⟨he, hes⟩ := List.forall_mem_cons.mp h
    rw [List.foldlM_cons, entry_of_holds he]
    exact ih hes _

lemma foldl_take {β : Type} (part : Settings → β) (name : Text)
    (hself : ∀ into, part (settings.take name into) = part settings)
    (hother : ∀ other ≠ name, ∀ into, part (settings.take other into) = part into)
    (names : List Text) (into : Settings) :
    part (names.foldl (fun s name => settings.take name s) into) =
      if name ∈ names then part settings else part into := by
  induction names generalizing into with
  | nil => rfl
  | cons other names ih =>
    rw [List.foldl_cons, ih]
    by_cases hmem : name ∈ names
    · rw [if_pos hmem, if_pos (List.mem_cons_of_mem _ hmem)]
    by_cases he : other = name
    · rw [if_neg hmem, if_pos (he ▸ List.mem_cons_self), he, hself]
    · rw [if_neg hmem, if_neg (by simp [hmem, Ne.symm he]), hother other he]

lemma take_policy (into : Settings) : (settings.take policyName into).policy = settings.policy := by
  rw [take, if_pos rfl]

lemma take_denylist (into : Settings) :
    (settings.take Kind.denylist.name into).exact = settings.exact ∧
    (settings.take Kind.denylist.name into).prefixes = settings.prefixes ∧
    (settings.take Kind.denylist.name into).suffixes = settings.suffixes := by
  rw [take, if_neg (policyName_ne .denylist).symm, if_pos rfl]
  exact ⟨rfl, rfl, rfl⟩

lemma take_allowlist (into : Settings) :
    (settings.take Kind.allowlist.name into).patterns = settings.patterns := by
  rw [take, if_neg (policyName_ne .allowlist).symm, if_neg (by decide), if_pos rfl]

lemma take_of_ne {name : Text} (into : Settings) :
    (name ≠ policyName → (settings.take name into).policy = into.policy) ∧
    (name ≠ Kind.denylist.name → (settings.take name into).exact = into.exact ∧
      (settings.take name into).prefixes = into.prefixes ∧
      (settings.take name into).suffixes = into.suffixes) ∧
    (name ≠ Kind.allowlist.name → (settings.take name into).patterns = into.patterns) := by
  rw [take]
  split_ifs with h1 h2 h3
  · exact ⟨fun h => absurd h1 h, fun _ => ⟨rfl, rfl, rfl⟩, fun _ => rfl⟩
  · exact ⟨fun _ => rfl, fun h => absurd h2 h, fun _ => rfl⟩
  · exact ⟨fun _ => rfl, fun _ => ⟨rfl, rfl, rfl⟩, fun h => absurd h3 h⟩
  · exact ⟨fun _ => rfl, fun _ => ⟨rfl, rfl, rfl⟩, fun _ => rfl⟩

lemma ofNode_of_accounts {es : Entries} (h : settings.Accounts es) (span : Option Span)
    (origin : Origin) : ofNode (.table span origin es) = .ok settings := by
  rw [ofNode, foldlM_entry h.entries, Except.ok.injEq]
  -- a part comes from the entry of its name, and without one there is none
  have hpart {β : Type} (part : Settings → Option β) {name : Text}
      (hself : ∀ into, part (settings.take name into) = part settings)
      (hother : ∀ other ≠ name, ∀ into, part (settings.take other into) = part into)
      (hnone : name ∉ es.names → part settings = none) (hstart : part {} = none) :
      part (es.names.foldl (fun s name => settings.take name s) {}) = part settings := by
    rw [foldl_take part name hself hother, hstart]
    split_ifs with h
    · rfl
    · exact (hnone h).symm
  have hlookup {kind : Kind} (hname : kind.name ∉ es.names) (name : Text) :
      (settings.fields kind).lookup name = none := by
    rw [h.fields kind hname]
    rfl
  obtain ⟨hdeny, hdeny', hdeny''⟩ := denylist_fields settings
  have hpolicy := hpart (·.policy) take_policy (fun _ h into => (take_of_ne into).1 h) h.policy rfl
  have hexact := hpart (·.exact) (fun into => (take_denylist into).1)
    (fun _ h into => ((take_of_ne into).2.1 h).1) (fun h => hdeny ▸ hlookup h _) rfl
  have hprefixes := hpart (·.prefixes) (fun into => (take_denylist into).2.1)
    (fun _ h into => ((take_of_ne into).2.1 h).2.1) (fun h => hdeny' ▸ hlookup h _) rfl
  have hsuffixes := hpart (·.suffixes) (fun into => (take_denylist into).2.2)
    (fun _ h into => ((take_of_ne into).2.1 h).2.2) (fun h => hdeny'' ▸ hlookup h _) rfl
  have hpatterns := hpart (·.patterns) take_allowlist (fun _ h into => (take_of_ne into).2.2 h)
    (fun h => allowlist_fields settings ▸ hlookup h _) rfl
  generalize es.names.foldl (fun s name => settings.take name s) {} = found at *
  cases found
  cases settings
  simp only [Settings.mk.injEq]
  exact ⟨hpolicy, hexact, hprefixes, hsuffixes, hpatterns⟩

end PathSieve.Settings
