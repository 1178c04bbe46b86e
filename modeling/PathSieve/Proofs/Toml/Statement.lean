import PathSieve.Proofs.Toml.Table
import PathSieve.Proofs.Toml.Value

namespace PathSieve.Toml

open Layout

def IsBareName (name : Text) : Prop := name ≠ [] ∧ ∀ c ∈ name, isBare c

instance (name : Text) : Decidable (IsBareName name) :=
  decidable_of_iff (name ≠ [] ∧ name.all isBare) (by simp [IsBareName])

def EndsKey (c : Char) : Prop := isBare c = false ∧ isSpace c = false ∧ c ≠ '.'

instance (c : Char) : Decidable (EndsKey c) := inferInstanceAs (Decidable (_ ∧ _))

lemma spaces_head {t r : Text} {c : Char} (h : Spaces t (c :: r)) (hc : isBare c = false) :
    ∃ d u, t = d :: u ∧ isBare d = false := by
  cases h with
  | stop => exact ⟨c, r, rfl, hc⟩
  | @skip d u _ hs _ =>
    refine ⟨d, u, rfl, ?_⟩
    rcases isSpace_iff.mp hs with rfl | rfl <;> decide

lemma name?_bare {name r : Text} {c : Char} (hname : IsBareName name) (hc : isBare c = false) :
    name? (name ++ c :: r) = some (name, c :: r) := by
  have hstop : ¬ isBare c = true := by simp [hc]
  rw [name?, List.takeWhile_append_of_pos hname.2, List.dropWhile_append_of_pos hname.2,
    List.takeWhile_cons_of_neg hstop, List.dropWhile_cons_of_neg hstop, List.append_nil]
  cases hn : name with
  | nil => exact absurd hn hname.1
  | cons => rfl

lemma dropSpaces_name {name t u : Text} (hname : IsBareName name) (ht : Spaces t (name ++ u)) :
    ∃ c s, dropSpaces t = name ++ u ∧ name ++ u = c :: s ∧ isBare c := by
  obtain ⟨hne, hall⟩ := hname
  cases name with
  | nil => exact absurd rfl hne
  | cons c s =>
    have hc := hall c List.mem_cons_self
    refine ⟨c, s ++ u, dropSpaces_to ht ?_, rfl, hc⟩
    by_contra hs
    rcases isSpace_iff.mp (by simpa using hs) with rfl | rfl <;> exact absurd hc (by decide)

lemma key?_bare {name t u r : Text} {c : Char} (hname : IsBareName name)
    (ht : Spaces t (name ++ u)) (hu : Spaces u (c :: r)) (hc : isBare c = false) :
    ∃ key, key.name = name ∧ key? (dropSpaces t) = some (key, u) := by
  obtain ⟨d, v, rfl, hd⟩ := spaces_head hu hc
  obtain ⟨-, -, hfirst, -, -⟩ := dropSpaces_name hname ht
  refine ⟨⟨name, .between (name ++ d :: v) (d :: v)⟩, rfl, ?_⟩
  rw [hfirst, key?, name?_bare hname hd]
  rfl

lemma keys?_last {name t u r : Text} {c : Char} (hname : IsBareName name)
    (ht : Spaces t (name ++ u)) (hu : Spaces u (c :: r)) (hc : EndsKey c) (fuel : ℕ) :
    ∃ key, key.name = name ∧ keys? (fuel + 1) t = some ([key], c :: r) := by
  obtain ⟨key, hkey, hread⟩ := key?_bare hname ht hu hc.1
  refine ⟨key, hkey, ?_⟩
  rw [keys?, hread]
  dsimp only [Option.bind_eq_bind, Option.bind_some]
  rw [dropSpaces_to hu hc.2.1]
  split
  · next h => exact absurd (List.cons.inj h).1 hc.2.2
  · rfl

lemma keys?_dot {name t u v : Text} (hname : IsBareName name) (ht : Spaces t (name ++ u))
    (hu : Spaces u ('.' :: v)) (fuel : ℕ) :
    ∃ key, key.name = name ∧
      keys? (fuel + 1) t = (keys? fuel v).map fun x => (key :: x.1, x.2) := by
  obtain ⟨key, hkey, hread⟩ := key?_bare hname ht hu (by decide)
  refine ⟨key, hkey, ?_⟩
  rw [keys?, hread]
  dsimp only [Option.bind_eq_bind, Option.bind_some]
  rw [dropSpaces_to hu (by decide), Option.map_eq_bind]
  rfl

lemma exists_depthLimit : ∃ n, depthLimit = n + 2 := ⟨_, rfl⟩

lemma dottedKey?_single {name t u r : Text} {c : Char} (hname : IsBareName name)
    (ht : Spaces t (name ++ u)) (hu : Spaces u (c :: r)) (hc : EndsKey c) :
    ∃ key, key.name = name ∧ dottedKey? t = some (([], key), c :: r) := by
  obtain ⟨n, hn⟩ := exists_depthLimit
  obtain ⟨key, hkey, hread⟩ := keys?_last hname ht hu hc (n + 1)
  refine ⟨key, hkey, ?_⟩
  rw [dottedKey?, hn, hread]
  rfl

lemma dottedKey?_double {table name t u v w r : Text} {c : Char} (htable : IsBareName table)
    (hname : IsBareName name) (ht : Spaces t (table ++ u)) (hu : Spaces u ('.' :: v))
    (hv : Spaces v (name ++ w)) (hw : Spaces w (c :: r)) (hc : EndsKey c) :
    ∃ outer inner, outer.name = table ∧ inner.name = name ∧
      dottedKey? t = some (([outer], inner), c :: r) := by
  obtain ⟨n, hn⟩ := exists_depthLimit
  obtain ⟨inner, hinner, hlast⟩ := keys?_last hname hv hw hc n
  obtain ⟨outer, houter, hread⟩ := keys?_dot htable ht hu (n + 1)
  refine ⟨outer, inner, houter, hinner, ?_⟩
  rw [dottedKey?, hn, hread, hlast]
  rfl

def IsField (e : Key × Node) (f : Field) : Prop := e.1.name = f.1 ∧ IsList e.2 f.2

lemma sequence_head {ss : List Text} {t r : Text} (h : Sequence ss t r) :
    ∃ u, t = '[' :: u := by
  cases h with
  | mk => exact ⟨_, rfl⟩

lemma char?_self (c : Char) (s : Text) : char? c (c :: s) = some s := if_pos rfl

lemma assignment?_of_value? {t v w r : Text} {path : List Key} {key : Key} {node : Node}
    (hkey : dottedKey? t = some ((path, key), '=' :: v)) (hv : dropSpaces v = w)
    (hvalue : value? depthLimit w = some (node, r)) :
    assignment? t = some (.assignment path key node, r) := by
  rw [assignment?, hkey]
  dsimp only [Option.bind_eq_bind, Option.bind_some]
  rw [char?_self, Option.bind_some, hv, hvalue]
  rfl

lemma assignment?_of_pair {f : Field} {t r : Text} (hname : IsBareName f.1) (h : Pair f t r) :
    ∃ e, IsField e f ∧ assignment? t = some (.assignment [] e.1 e.2, r) := by
  cases h with
  | mk ht hu hv hw =>
    obtain ⟨key, hkey, hread⟩ := dottedKey?_single hname ht hu (by decide)
    obtain ⟨_, rfl⟩ := sequence_head hw
    obtain ⟨node, hvalue, hnode⟩ := value?_of_sequence hw (by decide : 0 < depthLimit)
    exact ⟨(key, node), ⟨hkey, hnode⟩,
      assignment?_of_value? hread (dropSpaces_to hv (by decide)) hvalue⟩

def AreFields (es : Entries) (fs : List Field) : Prop := List.Forall₂ IsField es fs

lemma AreFields.names {es : Entries} {fs : List Field} (h : AreFields es fs) :
    es.names = fs.map (·.1) := by
  induction h with
  | nil => rfl
  | cons he _ ih =>
    rw [Entries.names, List.map_cons, List.map_cons, he.1]
    exact congrArg _ ih

lemma AreFields.concat {es : Entries} {fs : List Field} (h : AreFields es fs) {e : Key × Node}
    {f : Field} (he : IsField e f) : AreFields (es ++ [e]) (fs ++ [f]) :=
  List.rel_append h (.cons he .nil)

lemma AreFields.not_mem_names {es : Entries} {fs : List Field} (h : AreFields es fs) {key : Key}
    {name : Text} (hkey : key.name = name) (hname : name ∉ fs.map (·.1)) :
    key.name ∉ es.names := by
  rwa [h.names, hkey]

lemma AreFields.fresh {es : Entries} {done fs : List Field} (h : AreFields es done) {f : Field}
    (hnodup : ((done ++ f :: fs).map (·.1)).Nodup) : f.1 ∉ es.names := by
  rw [List.map_append, List.map_cons, List.nodup_append] at hnodup
  rw [h.names]
  exact fun hmem => hnodup.2.2 _ hmem _ List.mem_cons_self rfl

lemma entries?_pair {f : Field} {t u v : Text} {c : Char} (hbare : IsBareName f.1) (h : Pair f t u)
    (hu : Spaces u (c :: v)) (hc : isSpace c = false) {es : Entries} (hfresh : f.1 ∉ es.names)
    {depth : ℕ} (hdepth : 0 < depth) (fuel : ℕ) :
    ∃ e, IsField e f ∧
      entries? (value? depth) (fuel + 1) (.table none .braced es) t =
        match c :: v with
        | ',' :: r => entries? (value? depth) fuel (.table none .braced (es ++ [e])) r
        | '\x7d' :: r => some (.table none .braced (es ++ [e]), r)
        | _ => none := by
  cases h with
  | mk ht hk hv hw =>
    obtain ⟨key, hkey, hread⟩ := dottedKey?_single hbare ht hk (by decide)
    obtain ⟨_, rfl⟩ := sequence_head hw
    obtain ⟨node, hvalue, hnode⟩ := value?_of_sequence hw hdepth
    refine ⟨(key, node), ⟨hkey, hnode⟩, ?_⟩
    rw [entries?, hread]
    dsimp only [Option.bind_eq_bind, Option.bind_some]
    rw [char?_self, Option.bind_some, dropSpaces_to hv (by decide), hvalue, Option.bind_some]
    dsimp only
    rw [assign?_direct (by decide) (hkey ▸ hfresh), Option.bind_some, dropSpaces_to hu hc]
    rfl

lemma entries?_of_fields {fs : List Field} {t r : Text} (h : Fields fs t r)
    (hbare : ∀ f ∈ fs, IsBareName f.1) {fuel : ℕ} (hfuel : t.length ≤ fuel) {es : Entries}
    {done : List Field} (hes : AreFields es done) (hnodup : ((done ++ fs).map (·.1)).Nodup)
    {depth : ℕ} (hdepth : 0 < depth) :
    ∃ es', entries? (value? depth) fuel (.table none .braced es) t =
      some (.table none .braced es', r) ∧ AreFields es' (done ++ fs) := by
  induction h generalizing fuel es done with
  | @last f t u r hpair hu =>
    have hlen := pair_length hpair
    obtain ⟨fuel, rfl⟩ : ∃ n, fuel = n + 1 := Nat.exists_eq_add_one.mpr (by omega)
    obtain ⟨e, he, hread⟩ := entries?_pair (hbare f List.mem_cons_self) hpair hu (by decide)
      (hes.fresh hnodup) hdepth fuel
    exact ⟨_, hread, hes.concat he⟩
  | @more f fs t u v r hpair hu _ ih =>
    have hlen := pair_length hpair
    have hlen' := spaces_length hu
    rw [List.length_cons] at hlen'
    obtain ⟨fuel, rfl⟩ : ∃ n, fuel = n + 1 := Nat.exists_eq_add_one.mpr (by omega)
    obtain ⟨e, he, hread⟩ := entries?_pair (hbare f List.mem_cons_self) hpair hu (by decide)
      (hes.fresh hnodup) hdepth fuel
    rw [List.append_cons] at hnodup
    have hshort : v.length ≤ fuel := by omega
    obtain ⟨es', hrest, hes'⟩ := ih (fun g hg => hbare g (List.mem_cons_of_mem f hg)) hshort
      (hes.concat he) hnodup
    rw [← List.append_cons] at hes'
    exact ⟨es', hread.trans hrest, hes'⟩

lemma fields_head {fs : List Field} {t r : Text} (h : Fields fs t r)
    (hbare : ∀ f ∈ fs, IsBareName f.1) : ∃ c s, dropSpaces t = c :: s ∧ isBare c := by
  have hpair {f : Field} {fs : List Field} {t u : Text} (h : Pair f t u)
      (hbare : ∀ g ∈ f :: fs, IsBareName g.1) : ∃ c s, dropSpaces t = c :: s ∧ isBare c := by
    cases h with
    | mk ht =>
      obtain ⟨c, s, hdrop, hcons, hc⟩ := dropSpaces_name (hbare f List.mem_cons_self) ht
      exact ⟨c, s, hdrop.trans hcons, hc⟩
  cases h with
  | last h => exact hpair h hbare
  | more h => exact hpair h hbare

lemma value?_of_braces {fs : List Field} {t r : Text} (h : Braces fs t r)
    (hbare : ∀ f ∈ fs, IsBareName f.1) (hnodup : (fs.map (·.1)).Nodup) {depth : ℕ}
    (hdepth : 1 < depth) :
    ∃ span es, value? depth t = some (.table (some span) .braced es, r) ∧ AreFields es fs := by
  obtain ⟨depth, rfl⟩ := Nat.exists_eq_add_one.mpr (Nat.zero_lt_of_lt hdepth)
  have hdepth : 0 < depth := Nat.lt_of_succ_lt_succ hdepth
  cases h with
  | @empty t r ht =>
    refine ⟨.between ('\x7b' :: t) r, [], ?_, .nil⟩
    rw [value?, braces?, dropSpaces_to ht (by decide)]
    rfl
  | @fields fs t r hfields =>
    obtain ⟨c, s, hhead, hc⟩ := fields_head hfields hbare
    obtain ⟨es, hread, hes⟩ := entries?_of_fields hfields hbare le_rfl .nil hnodup hdepth
    refine ⟨.between ('\x7b' :: t) r, es, ?_, hes⟩
    have hbraces : braces? (value? depth) t = some (.table none .braced es, r) := by
      rw [braces?, hhead]
      split
      · next h =>
        rw [(List.cons.inj h).1] at hc
        exact absurd hc (by decide)
      · exact hread
    rw [value?, hbraces]
    rfl

end PathSieve.Toml
