import Mathlib.Data.List.Infix
import PathSieve.Proofs.Toml.Table
import PathSieve.Toml.Document

/-! Documents are sound: no table of one has a key twice, and every `[[name]]` stands for at least
one table. Each step of reading keeps this. -/

namespace PathSieve.Toml

def Node.IsTable (node : Node) : Prop := ∃ span origin es, node = .table span origin es

inductive Node.Sound : Node → Prop
  | scalar (span : Span) (value : Scalar) : Sound (.scalar span value)
  | array (span : Span) {items : List Node} : (∀ item ∈ items, Sound item) →
      Sound (.array span items)
  | table (span : Option Span) (origin : Origin) {es : Entries} : es.names.Nodup →
      (∀ e ∈ es, Sound e.2) → Sound (.table span origin es)
  | tables {items : List Node} : items ≠ [] → (∀ item ∈ items, Sound item) →
      (∀ item ∈ items, item.IsTable) → Sound (.tables items)

def Entries.Sound (es : Entries) : Prop := es.names.Nodup ∧ ∀ e ∈ es, e.2.Sound

def Node.SoundTable (node : Node) : Prop := node.Sound ∧ node.IsTable

def Keeps (f : Node → Option Node) : Prop :=
  ∀ table node, table.SoundTable → f table = some node → node.SoundTable

lemma sound_table {span : Option Span} {origin : Origin} {es : Entries} :
    (Node.table span origin es).Sound ↔ es.Sound := by
  constructor
  · rintro (_ | _ | ⟨_, _, hnodup, hes⟩)
    exact ⟨hnodup, hes⟩
  · exact fun h => .table span origin h.1 h.2

lemma soundTable {span : Option Span} {origin : Origin} {es : Entries} :
    (Node.table span origin es).SoundTable ↔ es.Sound := by
  rw [Node.SoundTable, sound_table]
  exact and_iff_left ⟨span, origin, es, rfl⟩

lemma Node.SoundTable.exists {node : Node} (h : node.SoundTable) :
    ∃ span origin es, node = .table span origin es ∧ Entries.Sound es := by
  obtain ⟨hsound, span, origin, es, rfl⟩ := h
  exact ⟨span, origin, es, rfl, sound_table.mp hsound⟩

lemma exists_table {items : List Node} (hne : items ≠ []) (h : ∀ item ∈ items, item.IsTable) :
    ∃ span origin es rest, items = .table span origin es :: rest := by
  obtain ⟨item, rest, rfl⟩ := List.exists_cons_of_ne_nil hne
  obtain ⟨span, origin, es, rfl⟩ := h item List.mem_cons_self
  exact ⟨span, origin, es, rest, rfl⟩

lemma sound_nil : Entries.Sound [] := ⟨List.nodup_nil, fun _ h => absurd h List.not_mem_nil⟩

section Entries

variable {es es' : Entries} {key : Key} {node : Node}

lemma sound_concat (h : es.Sound) (hkey : key.name ∉ es.names) (hnode : node.Sound) :
    Entries.Sound (es ++ [(key, node)]) := by
  refine ⟨nodup_concat h.1 hkey, fun e he => ?_⟩
  rcases List.mem_append.mp he with he | he
  · exact h.2 e he
  · rw [List.mem_singleton.mp he]
    exact hnode

lemma sound_without (h : es.Sound) (name : Text) : Entries.Sound (Entries.without name es) :=
  ⟨(List.filter_sublist.map _).nodup h.1, fun e he => h.2 e (List.mem_filter.mp he).1⟩

lemma not_mem_without (name : Text) : name ∉ (Entries.without name es).names := by
  simp [Entries.names, Entries.without]

lemma sound_of_node? (h : es.Sound) {name : Text} (hnode : Entries.node? name es = some node) :
    node.Sound := by
  obtain ⟨e, he, rfl⟩ := Option.map_eq_some_iff.mp hnode
  exact h.2 e (List.mem_of_find?_eq_some he)

def KeepsNode (f : Option Node → Option Node) : Prop :=
  ∀ old node, (∀ n ∈ old, n.Sound) → f old = some node → node.Sound

lemma alter?_eq_some {f : Option Node → Option Node} (h : Entries.alter? f key es = some es') :
    (∃ node, f none = some node ∧ key.name ∉ es.names ∧ es' = es ++ [(key, node)]) ∨
      ∃ before e after node, es = before ++ e :: after ∧ f (some e.2) = some node ∧
        es' = before ++ (e.1, node) :: after := by
  induction es generalizing es' with
  | nil =>
    obtain ⟨node, hnode, rfl⟩ := Option.map_eq_some_iff.mp h
    exact Or.inl ⟨node, hnode, List.not_mem_nil, rfl⟩
  | cons e es ih =>
    rw [Entries.alter?] at h
    split_ifs at h with he
    · obtain ⟨node, hnode, rfl⟩ := Option.map_eq_some_iff.mp h
      exact Or.inr ⟨[], e, es, node, rfl, hnode, rfl⟩
    · obtain ⟨es', halter, rfl⟩ := Option.map_eq_some_iff.mp h
      rcases ih halter with ⟨node, hnode, hkey, rfl⟩ | ⟨before, e', after, node, rfl, hnode, rfl⟩
      · refine Or.inl ⟨node, hnode, ?_, rfl⟩
        have hne : key.name ≠ e.1.name := fun hname => he (beq_iff_eq.mpr hname.symm)
        rw [Entries.names, List.map_cons, List.mem_cons, not_or]
        exact ⟨hne, hkey⟩
      · exact Or.inr ⟨e :: before, e', after, node, rfl, hnode, rfl⟩

lemma sound_alter? {f : Option Node → Option Node} (hf : KeepsNode f) (h : es.Sound)
    (halter : Entries.alter? f key es = some es') : es'.Sound := by
  rcases alter?_eq_some halter with ⟨node, hnode, hkey, rfl⟩ |
    ⟨before, e, after, node, rfl, hnode, rfl⟩
  · exact sound_concat h hkey (hf none node (by simp) hnode)
  · have he : e.2.Sound := h.2 e (by simp)
    refine ⟨?_, ?_⟩
    · have hnames : Entries.names (before ++ (e.1, node) :: after) =
          Entries.names (before ++ e :: after) := by simp [Entries.names]
      rw [hnames]
      exact h.1
    · intro e' he'
      rcases List.mem_append.mp he' with he' | he'
      · exact h.2 e' (List.mem_append_left _ he')
      rcases List.mem_cons.mp he' with rfl | he'
      · exact hf _ node (by simpa using he) hnode
      · exact h.2 e' (List.mem_append_right _ (List.mem_cons_of_mem _ he'))

end Entries

section Edits

variable {f : Node → Option Node} {route : Route}

lemma keepsNode_enter? (hf : Keeps f) : KeepsNode (Node.enter? route f) := by
  intro old node hold h
  cases old with
  | none => exact (hf _ node (soundTable.mpr sound_nil) h).1
  | some old =>
    have hsound := hold old rfl
    cases hsound with
    | scalar | array => cases h
    | table span origin hnodup hes =>
      rw [Node.enter?] at h
      split_ifs at h
      exact (hf _ node (soundTable.mpr ⟨hnodup, hes⟩) h).1
    | @tables items hne hsound htable =>
      simp only [Node.enter?, Option.bind_eq_bind, Option.bind_eq_some_iff, Option.some.injEq] at h
      obtain ⟨last, hlast, last', hlast', rfl⟩ := h
      have hmem := List.mem_of_getLast? hlast
      have hkept := hf last last' ⟨hsound last hmem, htable last hmem⟩ hlast'
      refine .tables (by simp) ?_ ?_
      · intro item hitem
        rcases List.mem_append.mp hitem with hitem | hitem
        · exact hsound item (List.mem_of_mem_dropLast hitem)
        · exact List.mem_singleton.mp hitem ▸ hkept.1
      · intro item hitem
        rcases List.mem_append.mp hitem with hitem | hitem
        · exact htable item (List.mem_of_mem_dropLast hitem)
        · exact List.mem_singleton.mp hitem ▸ hkept.2

lemma keeps_edit? (hf : Keeps f) (path : List Key) : Keeps (Node.edit? route f path) := by
  induction path with
  | nil => exact hf
  | cons key path ih =>
    intro table node htable h
    obtain ⟨span, origin, es, rfl, hes⟩ := htable.exists
    obtain ⟨es', halter, rfl⟩ := Option.map_eq_some_iff.mp h
    exact soundTable.mpr (sound_alter? (keepsNode_enter? ih) hes halter)

lemma keeps_insert? (direct : Bool) (key : Key) {value : Node} (hvalue : value.Sound) :
    Keeps (Node.insert? direct key value) := by
  intro table node htable h
  obtain ⟨span, origin, es, rfl, hes⟩ := htable.exists
  rw [Node.insert?] at h
  split_ifs at h with hfresh
  obtain rfl := Option.some.inj h
  rw [Bool.and_eq_true, Option.isNone_iff_eq_none, node?_eq_none] at hfresh
  exact soundTable.mpr (sound_concat hes hfresh.2 hvalue)

lemma keeps_assign? (path : List Key) (key : Key) {value : Node} (hvalue : value.Sound) :
    Keeps (Node.assign? · path key value) :=
  keeps_edit? (keeps_insert? path.isEmpty key hvalue) path

lemma keeps_open? (key : Key) (span : Span) : Keeps (Node.open? key span) := by
  intro table node htable h
  obtain ⟨outer, origin, es, rfl, hes⟩ := htable.exists
  have hput {inner : Entries} (hinner : inner.Sound) :
      (Node.table outer origin
        (Entries.without key.name es ++ [(key, .table (some span) .header inner)])).SoundTable :=
    soundTable.mpr (sound_concat (sound_without hes _) (not_mem_without _) (sound_table.mpr hinner))
  rw [Node.open?] at h
  split at h
  · obtain rfl := Option.some.inj h
    exact hput sound_nil
  · next inner hnode =>
    obtain rfl := Option.some.inj h
    exact hput (sound_table.mp (sound_of_node? hes hnode))
  · cases h

lemma keeps_openNext? (key : Key) (span : Span) : Keeps (Node.openNext? key span) := by
  intro table node htable h
  obtain ⟨outer, origin, es, rfl, hes⟩ := htable.exists
  obtain ⟨es', halter, rfl⟩ := Option.map_eq_some_iff.mp h
  have hnext : (Node.table (some span) .header []).SoundTable := soundTable.mpr sound_nil
  refine soundTable.mpr (sound_alter? ?_ hes halter)
  intro old node hold hput
  cases old with
  | none =>
    obtain rfl := Option.some.inj hput
    refine .tables (by simp) ?_ ?_
    · simpa using hnext.1
    · simpa using hnext.2
  | some old =>
    have hsound := hold old rfl
    cases hsound with
    | scalar | array | table => cases hput
    | @tables items hne hsound htable =>
      obtain rfl := Option.some.inj hput
      refine .tables (by simp) ?_ ?_
      · simpa [or_imp, forall_and] using ⟨hsound, hnext.1⟩
      · simpa [or_imp, forall_and] using ⟨htable, hnext.2⟩

lemma soundTable_extend (value : Node) {node : Node} (h : node.SoundTable) :
    (Node.extend value node).SoundTable := by
  obtain ⟨span, origin, es, rfl, hes⟩ := h.exists
  cases span <;> exact soundTable.mpr hes

lemma sound_place {node : Node} (h : node.Sound) (start stop : Text) :
    (node.place start stop).Sound := by
  cases h with
  | table _ _ hnodup hes => exact .table _ _ hnodup hes
  | scalar => exact .scalar _ _
  | array _ hitems => exact .array _ hitems
  | tables hne hitems htables => exact .tables hne hitems htables

end Edits

section Reading

def ReadsSound (item? : Reader Node) : Prop :=
  ∀ s node r, item? s = some (node, r) → node.Sound

variable {item? : Reader Node} {s r : Text}

lemma sound_items? (hitem : ReadsSound item?) {fuel : ℕ} {items : List Node}
    (h : items? item? fuel s = some (items, r)) : ∀ item ∈ items, item.Sound := by
  induction fuel generalizing s items r with
  | zero => cases h
  | succ fuel ih =>
    rw [items?] at h
    split at h
    · obtain ⟨rfl, rfl⟩ := Prod.mk.inj (Option.some.inj h)
      simp
    simp only [Option.bind_eq_bind, Option.bind_eq_some_iff, Prod.exists] at h
    obtain ⟨item, u, hread, h⟩ := h
    have hsound := hitem _ _ _ hread
    split at h
    · simp only [Option.bind_eq_some_iff, Prod.exists, Option.some.injEq, Prod.mk.injEq] at h
      obtain ⟨rest, v, hrest, rfl, rfl⟩ := h
      exact List.forall_mem_cons.mpr ⟨hsound, ih hrest⟩
    · obtain ⟨rfl, rfl⟩ := Prod.mk.inj (Option.some.inj h)
      simpa using hsound
    · cases h

lemma soundTable_entries? (hitem : ReadsSound item?) {fuel : ℕ} {table node : Node}
    (htable : table.SoundTable) (h : entries? item? fuel table s = some (node, r)) :
    node.SoundTable := by
  induction fuel generalizing s table with
  | zero => cases h
  | succ fuel ih =>
    simp only [entries?, Option.bind_eq_bind, Option.bind_eq_some_iff, Prod.exists] at h
    obtain ⟨path, key, u, hkey, v, hequals, value, w, hvalue, table', hassign, h⟩ := h
    have hkept := keeps_assign? path key (hitem _ _ _ hvalue) table table' htable hassign
    split at h
    · exact ih hkept h
    · obtain ⟨rfl, rfl⟩ := Prod.mk.inj (Option.some.inj h)
      exact hkept
    · cases h

lemma soundTable_braces? (hitem : ReadsSound item?) {node : Node}
    (h : braces? item? s = some (node, r)) : node.SoundTable := by
  have hempty : (Node.table none .braced []).SoundTable := soundTable.mpr sound_nil
  rw [braces?] at h
  split at h
  · obtain ⟨rfl, rfl⟩ := Prod.mk.inj (Option.some.inj h)
    exact hempty
  · exact soundTable_entries? hitem hempty h

lemma value?_eq_some {depth : ℕ} {node : Node} (h : value? depth s = some (node, r)) :
    (∃ span value, node = .scalar span value) ∨
      (∃ d t fuel span items, depth = d + 1 ∧ items? (value? d) fuel t = some (items, r) ∧
        node = .array span items) ∨
      ∃ d t table start, depth = d + 1 ∧ braces? (value? d) t = some (table, r) ∧
        node = table.place start r := by
  unfold value? at h
  split at h
  all_goals
    simp only [Option.bind_eq_bind, Option.bind_eq_some_iff, Prod.exists, Option.some.injEq,
      Prod.mk.injEq] at h
  · obtain ⟨items, u, hitems, rfl, rfl⟩ := h
    exact Or.inr (Or.inl ⟨_, _, _, _, items, rfl, hitems, rfl⟩)
  · obtain ⟨table, u, hbraces, rfl, rfl⟩ := h
    exact Or.inr (Or.inr ⟨_, _, table, _, rfl, hbraces, rfl⟩)
  · obtain ⟨value, u, -, rfl, -⟩ := h
    exact Or.inl ⟨_, value, rfl⟩

lemma readsSound_value? (depth : ℕ) : ReadsSound (value? depth) := by
  induction depth with
  | zero =>
    intro s node r h
    rcases value?_eq_some h with ⟨span, value, rfl⟩ | ⟨d, _, _, _, _, hd, _⟩ | ⟨d, _, _, _, hd, _⟩
    · exact .scalar span value
    · cases hd
    · cases hd
  | succ depth ih =>
    intro s node r h
    rcases value?_eq_some h with ⟨span, value, rfl⟩ | ⟨d, t, fuel, span, items, hd, hitems, rfl⟩ |
      ⟨d, t, table, start, hd, hbraces, rfl⟩
    · exact .scalar span value
    · obtain rfl := Nat.succ.inj hd
      exact .array span (sound_items? ih hitems)
    · obtain rfl := Nat.succ.inj hd
      exact sound_place (soundTable_braces? ih hbraces).1 start r

def Statement.Sound : Statement → Prop
  | .assignment _ _ value => value.Sound
  | _ => True

lemma sound_assignment? {st : Statement} (h : assignment? s = some (st, r)) : st.Sound := by
  simp only [assignment?, Option.bind_eq_bind, Option.bind_eq_some_iff, Prod.exists,
    Option.some.injEq, Prod.mk.injEq] at h
  obtain ⟨path, key, u, -, v, -, value, w, hvalue, rfl, -⟩ := h
  exact readsSound_value? _ _ _ _ hvalue

lemma sound_header? {t : Text} {st : Statement} (h : header? t s = some (st, r)) : st.Sound := by
  unfold header? at h
  split at h
  all_goals
    simp only [Option.bind_eq_bind, Option.bind_eq_some_iff, Prod.exists, Option.some.injEq,
      Prod.mk.injEq] at h
  · obtain ⟨path, key, u, -, v, -, w, -, rfl, -⟩ := h
    trivial
  · obtain ⟨path, key, u, -, v, -, rfl, -⟩ := h
    trivial

lemma sound_statement? {st : Statement} (h : statement? s = some (st, r)) : st.Sound := by
  rw [statement?] at h
  split at h
  all_goals
    simp only [Option.bind_eq_bind, Option.bind_some, Option.bind_eq_some_iff, Prod.exists,
      Option.some.injEq, Prod.mk.injEq] at h
  -- the first four are a line with nothing on it
  iterate 4
    · obtain ⟨u, -, rfl, -⟩ := h
      trivial
  · obtain ⟨header, u, hheader, v, -, rfl, -⟩ := h
    exact sound_header? hheader
  · obtain ⟨assignment, u, hassignment, v, -, rfl, -⟩ := h
    exact sound_assignment? hassignment

lemma sound_statements? {fuel : ℕ} {sts : List Statement} (h : statements? fuel s = some sts) :
    ∀ st ∈ sts, st.Sound := by
  induction fuel generalizing s sts with
  | zero =>
    cases s with
    | nil =>
      obtain rfl := Option.some.inj h
      simp
    | cons c s => cases h
  | succ fuel ih =>
    cases s with
    | nil =>
      obtain rfl := Option.some.inj h
      simp
    | cons c s =>
      simp only [statements?, Option.bind_eq_bind, Option.bind_eq_some_iff, Prod.exists,
        Option.some.injEq] at h
      obtain ⟨st, u, hst, rest, hrest, rfl⟩ := h
      exact List.forall_mem_cons.mpr ⟨sound_statement? hst, ih hrest⟩

end Reading

lemma soundTable_add? {d d' : Draft} {st : Statement} (hd : d.root.SoundTable) (hst : st.Sound)
    (h : d.add? st = some d') : d'.root.SoundTable := by
  cases st with
  | blank => exact Option.some.inj h ▸ hd
  | header span path key =>
    simp only [Draft.add?, Option.bind_eq_bind, Option.bind_eq_some_iff, Option.some.injEq] at h
    obtain ⟨root, hroot, rfl⟩ := h
    exact keeps_edit? (keeps_open? key span) path _ _ hd hroot
  | nextHeader span path key =>
    simp only [Draft.add?, Option.bind_eq_bind, Option.bind_eq_some_iff, Option.some.injEq] at h
    obtain ⟨root, hroot, rfl⟩ := h
    exact keeps_edit? (keeps_openNext? key span) path _ _ hd hroot
  | assignment path key value =>
    simp only [Draft.add?, Option.bind_eq_bind, Option.bind_eq_some_iff, Option.some.injEq] at h
    obtain ⟨root, hroot, rfl⟩ := h
    refine keeps_edit? ?_ d.heading _ _ hd hroot
    intro table node htable hassign
    obtain ⟨assigned, hassigned, rfl⟩ := Option.map_eq_some_iff.mp hassign
    exact soundTable_extend value (keeps_assign? path key hst _ _ htable hassigned)

lemma soundTable_foldlM {sts : List Statement} {d d' : Draft} (hd : d.root.SoundTable)
    (hsts : ∀ st ∈ sts, st.Sound) (h : sts.foldlM Draft.add? d = some d') : d'.root.SoundTable := by
  induction sts generalizing d with
  | nil => exact Option.some.inj h ▸ hd
  | cons st sts ih =>
    rw [List.foldlM_cons, Option.bind_eq_bind, Option.bind_eq_some_iff] at h
    obtain ⟨e, hadd, hrest⟩ := h
    obtain ⟨hst, hsts⟩ := List.forall_mem_cons.mp hsts
    exact ih (soundTable_add? hd hst hadd) hsts hrest

theorem soundTable_parse? {s : Text} {node : Node} (h : parse? s = some node) :
    node.SoundTable := by
  simp only [parse?, Option.bind_eq_bind, Option.bind_eq_some_iff, Option.some.injEq] at h
  obtain ⟨sts, hsts, d, hfold, rfl⟩ := h
  have hstart : (Draft.start s).root.SoundTable := soundTable.mpr sound_nil
  exact soundTable_foldlM hstart (sound_statements? hsts) hfold

end PathSieve.Toml
