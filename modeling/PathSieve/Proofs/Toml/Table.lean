import Mathlib.Data.List.Nodup
import PathSieve.Toml.Table

namespace PathSieve.Toml

def Entries.names (es : Entries) : List Text := es.map (·.1.name)

structure Entries.Replaced (name : Text) (node : Node) (es es' : Entries) : Prop where
  names : es'.names = es.names
  node : Entries.node? name es' = some node
  others : ∀ other ≠ name, Entries.node? other es' = Entries.node? other es

variable {es : Entries} {key : Key} {node : Node} {name : Text}

lemma node?_eq_none : Entries.node? name es = none ↔ name ∉ es.names := by
  simp [Entries.node?, Entries.names]

lemma node?_cons_self {e : Key × Node} (h : e.1.name = name) :
    Entries.node? name (e :: es) = some e.2 := by
  simp [Entries.node?, h]

lemma node?_cons_of_ne {e : Key × Node} (h : e.1.name ≠ name) :
    Entries.node? name (e :: es) = Entries.node? name es := by
  simp [Entries.node?, h]

lemma node?_append (as bs : Entries) :
    Entries.node? name (as ++ bs) = (Entries.node? name as).or (Entries.node? name bs) := by
  simp [Entries.node?, List.find?_append, Option.map_or]

lemma node?_concat_self (h : key.name ∉ es.names) :
    Entries.node? key.name (es ++ [(key, node)]) = some node := by
  rw [node?_append, node?_eq_none.mpr h, Option.none_or]
  simp [Entries.node?]

lemma node?_concat_of_ne (h : key.name ≠ name) :
    Entries.node? name (es ++ [(key, node)]) = Entries.node? name es := by
  have hlast : Entries.node? name [(key, node)] = none := by simp [Entries.node?, h]
  rw [node?_append, hlast, Option.or_none]

lemma nodup_concat (hes : es.names.Nodup) (h : key.name ∉ es.names) :
    (Entries.names (es ++ [(key, node)])).Nodup := by
  rw [Entries.names, List.map_append]
  refine List.Nodup.append hes (List.nodup_singleton _) ?_
  rw [List.map_singleton, List.disjoint_singleton]
  exact h

lemma without_eq_self (h : name ∉ es.names) : Entries.without name es = es := by
  rw [Entries.without, List.filter_eq_self]
  intro e he
  have hne : e.1.name ≠ name := fun hn => h (List.mem_map.mpr ⟨e, he, hn⟩)
  simp [hne]

lemma alter?_of_not_mem {f : Option Node → Option Node} (h : key.name ∉ es.names) :
    Entries.alter? f key es = (f none).map fun node => es ++ [(key, node)] := by
  induction es with
  | nil => rfl
  | cons e es ih =>
    rw [Entries.names, List.map_cons, List.mem_cons, not_or] at h
    have hne : (e.1.name == key.name) = false := by simp [Ne.symm h.1]
    rw [Entries.alter?, hne, if_neg Bool.false_ne_true, ih h.2]
    cases f none <;> rfl

lemma alter?_of_node? {f : Option Node → Option Node} {old : Node}
    (hold : Entries.node? key.name es = some old) (hf : f (some old) = some node) :
    ∃ es', Entries.alter? f key es = some es' ∧ Entries.Replaced key.name node es es' := by
  induction es with
  | nil => cases hold
  | cons e es ih =>
    rw [Entries.alter?]
    by_cases he : e.1.name = key.name
    · rw [node?_cons_self he, Option.some.injEq] at hold
      rw [if_pos (beq_iff_eq.mpr he), hold, hf]
      refine ⟨(e.1, node) :: es, rfl, rfl, node?_cons_self he, fun name hname => ?_⟩
      have hne : e.1.name ≠ name := he.trans_ne hname.symm
      exact (node?_cons_of_ne (e := (e.1, node)) hne).trans (node?_cons_of_ne hne).symm
    · rw [node?_cons_of_ne he] at hold
      obtain ⟨es', halter, hnames, hself, hother⟩ := ih hold
      rw [if_neg (by simpa using he), halter]
      refine ⟨e :: es', rfl, congrArg (e.1.name :: ·) hnames, ?_, fun name hname => ?_⟩
      · rw [node?_cons_of_ne he, hself]
      · by_cases hn : e.1.name = name
        · rw [node?_cons_self hn, node?_cons_self hn]
        · rw [node?_cons_of_ne hn, node?_cons_of_ne hn, hother name hname]

section

variable {span inner : Option Span} {origin : Origin} {fs : Entries} {outer : Key}

lemma assign?_direct (ho : origin ≠ .dotted) (h : key.name ∉ es.names) :
    (Node.table span origin es).assign? [] key node =
      some (.table span origin (es ++ [(key, node)])) := by
  rw [Node.assign?, Node.edit?, Node.insert?, node?_eq_none.mpr h]
  simp [ho]

lemma insert?_dotted (h : key.name ∉ fs.names) :
    Node.insert? false key node (.table inner .dotted fs) =
      some (.table inner .dotted (fs ++ [(key, node)])) := by
  rw [Node.insert?, node?_eq_none.mpr h]
  rfl

lemma assign?_first (h : outer.name ∉ es.names) :
    (Node.table span origin es).assign? [outer] key node =
      some (.table span origin (es ++ [(outer, .table none .dotted [(key, node)])])) := by
  rw [Node.assign?, Node.edit?, alter?_of_not_mem h]
  rfl

lemma assign?_next (hold : Entries.node? outer.name es = some (.table inner .dotted fs))
    (h : key.name ∉ fs.names) :
    ∃ es', (Node.table span origin es).assign? [outer] key node = some (.table span origin es') ∧
      Entries.Replaced outer.name (.table inner .dotted (fs ++ [(key, node)])) es es' := by
  obtain ⟨es', halter, hes'⟩ := alter?_of_node?
    (f := Node.enter? .dotted (Node.edit? .dotted (Node.insert? false key node) [])) hold
    (insert?_dotted h)
  refine ⟨es', ?_, hes'⟩
  rw [Node.assign?, Node.edit?]
  exact congrArg (Option.map _) halter

lemma open?_new {place : Span} (h : key.name ∉ es.names) :
    Node.open? key place (.table span origin es) =
      some (.table span origin (es ++ [(key, .table (some place) .header [])])) := by
  rw [Node.open?, node?_eq_none.mpr h]
  dsimp only
  rw [without_eq_self h]

lemma edit?_header (hold : Entries.node? outer.name es = some (.table inner .header fs))
    (h : key.name ∉ fs.names) :
    ∃ es' inner', (Node.table span origin es).edit? .header
        (fun table => (table.assign? [] key node).map (Node.extend node)) [outer] =
          some (.table span origin es') ∧
      Entries.Replaced outer.name (.table inner' .header (fs ++ [(key, node)])) es es' := by
  have hassign : (Node.table inner .header fs).assign? [] key node =
      some (.table inner .header (fs ++ [(key, node)])) := assign?_direct (by decide) h
  obtain ⟨inner', hextend⟩ : ∃ inner', Node.extend node
      (.table inner .header (fs ++ [(key, node)])) =
        .table inner' .header (fs ++ [(key, node)]) := by
    cases inner <;> exact ⟨_, rfl⟩
  obtain ⟨es', halter, hes'⟩ := alter?_of_node?
    (f := Node.enter? .header (Node.edit? .header
      (fun table => (table.assign? [] key node).map (Node.extend node)) [])) hold
    (congrArg (Option.map (Node.extend node)) hassign)
  rw [hextend] at hes'
  refine ⟨es', inner', ?_, hes'⟩
  rw [Node.edit?]
  exact congrArg (Option.map _) halter

end

end PathSieve.Toml
