import Mathlib.Data.List.Forall2
import PathSieve.Proofs.Tree.Order
import PathSieve.Proofs.Tree.World

/-! Looking paths up in a reordered tree. A name stands for one entry of a directory, wherever the
directory yields it, so a path leads to the same place or is refused for the same reason. -/

namespace PathSieve

namespace Tree

def child? (name : Bytes) : Tree → Option Tree
  | directory es _ => named? name es
  | _ => none

lemma rel_reordered_refl (o : Option Tree) : Option.Rel Reordered o o := by
  cases o with
  | none => exact .none
  | some t => exact .some (.refl t)

lemma Reordered.child? {t t' : Tree} (h : Reordered t t') (ht : Legal t) (name : Bytes) :
    Option.Rel Reordered (t.child? name) (t'.child? name) := by
  induction h with
  | refl => exact rel_reordered_refl _
  | @trans t u v htu _ ih ih' =>
    have h1 := ih ht
    have h2 := ih' (htu.legal ht)
    revert h1 h2
    cases t.child? name <;> cases u.child? name <;> cases v.child? name <;> rintro ⟨⟩ ⟨⟩
    · exact .none
    · rename_i hab hbc
      exact .some (hab.trans hbc)
  | @swap es es' access hp =>
    have hsame : named? name es = named? name es' := by
      ext u
      rw [named?_eq_some_iff ht.nodup, named?_eq_some_iff ((hp.map _).nodup_iff.mp ht.nodup),
        hp.mem_iff]
    rw [Tree.child?, Tree.child?, ← hsame]
    exact rel_reordered_refl _
  | @inside t t' before after n access htt' _ =>
    rw [Tree.child?, Tree.child?, named?, named?, List.find?_append, List.find?_append]
    cases before.find? fun e => e.1 == name with
    | some e => exact rel_reordered_refl _
    | none =>
      rw [Option.none_or, Option.none_or, List.find?_cons, List.find?_cons]
      cases n == name with
      | false => exact rel_reordered_refl _
      | true => exact .some htt'

lemma Reordered.exists_directory {t t' : Tree} (h : Reordered t t') {es : List (Bytes × Tree)}
    {access : Access} (ht : t = .directory es access) : ∃ es', t' = .directory es' access := by
  induction h generalizing es with
  | refl => exact ⟨es, ht⟩
  | trans _ _ ih ih' =>
    obtain ⟨_, hu⟩ := ih ht
    exact ih' hu
  | swap | inside =>
    cases ht
    exact ⟨_, rfl⟩

lemma Reordered.eq_of_link {t t' : Tree} (h : Reordered t t') {target : Bytes} :
    t = .link target ↔ t' = .link target := by
  induction h with
  | refl => rfl
  | trans _ _ ih ih' => exact ih.trans ih'
  | swap | inside => simp

end Tree

namespace World

open PathSieve.Tree (child?)

structure Place.Reordered (place place' : Place) : Prop where
  names : place.names = place'.names
  tree : place.tree.Reordered place'.tree
  above : List.Forall₂ Tree.Reordered place.above place'.above

lemma Place.Legal.child {place : Place} (h : place.Legal) {name : Bytes} {t : Tree}
    (ht : place.tree.child? name = some t) : (place.down name t).Legal := by
  cases hes : place.tree with
  | directory es access =>
    rw [hes] at ht
    exact h.entry hes ht
  | file | link =>
    rw [hes] at ht
    cases ht

lemma Place.Reordered.exists_directory {place place' : Place} (h : place.Reordered place')
    {es : List (Bytes × Tree)} {access : Access} (hes : place.tree = .directory es access) :
    ∃ es', place'.tree = .directory es' access :=
  h.tree.exists_directory hes

lemma Place.Reordered.access? {place place' : Place} (h : place.Reordered place') :
    place'.access? = place.access? := by
  have hdir := h.tree.isDirectory
  rw [Place.access?, Place.access?]
  cases hes : place.tree with
  | directory es access =>
    obtain ⟨es', hes'⟩ := h.exists_directory hes
    rw [hes']
  | file | link =>
    rw [hes] at hdir
    cases hes' : place'.tree with
    | directory =>
      rw [hes'] at hdir
      cases hdir
    | file | link => rfl

lemma Place.Reordered.up {place place' : Place} (h : place.Reordered place') :
    place.up.Reordered place'.up := by
  obtain ⟨names, tree, above⟩ := place
  obtain ⟨names', tree', above'⟩ := place'
  obtain ⟨rfl, htree, habove⟩ := h
  cases names with
  | nil => exact ⟨rfl, htree, habove⟩
  | cons name names =>
    cases habove with
    | nil => exact ⟨rfl, htree, .nil⟩
    | cons ht habove => exact ⟨rfl, ht, habove⟩

lemma Place.Reordered.down {place place' : Place} (h : place.Reordered place') (name : Bytes)
    {t t' : Tree} (ht : t.Reordered t') : (place.down name t).Reordered (place'.down name t') :=
  ⟨congrArg (name :: ·) h.names, ht, .cons h.tree h.above⟩

lemma Place.Reordered.ite {c : Prop} [Decidable c] {a a' b b' : Place} (ha : a.Reordered a')
    (hb : b.Reordered b') : (if c then a else b).Reordered (if c then a' else b') := by
  split_ifs
  · exact ha
  · exact hb

inductive SameOutcome : Except Refusal Place → Except Refusal Place → Prop
  | ok {place place' : Place} : place.Reordered place' → SameOutcome (.ok place) (.ok place')
  | error (why : Refusal) : SameOutcome (.error why) (.error why)

variable {root root' : Tree}

lemma SameOutcome.entry {r : Except Refusal Place} {place place' : Place} {links : ℕ}
    {piece : Bytes} {todo : List Bytes} {es : List (Bytes × Tree)} {access : Access}
    {o : Option Tree} (hp : place.Reordered place') (ht : place.Legal)
    (hes : place.tree = .directory es access) (ho : Tree.named? piece es = o)
    (hentry : IsEntry access piece) (hlen : ¬ nameLimit < piece.length)
    (h : ∀ o', Option.Rel Tree.Reordered o o' →
      SameOutcome r (enterChild root' links place' piece todo o')) :
    SameOutcome r (follow root' links place' (piece :: todo)) := by
  obtain ⟨es', hes'⟩ := hp.exists_directory hes
  have hrel := hp.tree.child? ht.1 piece
  rw [hes, hes', child?, child?, ho] at hrel
  rw [follow_entry hes' hentry hlen]
  exact h _ hrel

lemma follow_reordered (hroot : root.Reordered root') (hlegal : root.Legal) {links : ℕ}
    {place place' : Place} {todo : List Bytes} (hp : place.Reordered place') (ht : place.Legal) :
    SameOutcome (follow root links place todo) (follow root' links place' todo) := by
  fun_induction follow root links place todo generalizing place' with
  | case1 =>
    rw [follow]
    exact .ok hp
  | case2 links place todo es access hes ih =>
    obtain ⟨es', hes'⟩ := hp.exists_directory hes
    rw [follow_empty hes']
    exact ih hp ht
  | case3 links place piece todo es access hes hne henter =>
    obtain ⟨es', hes'⟩ := hp.exists_directory hes
    rw [follow, hes']
    dsimp only
    rw [if_neg hne, if_pos henter]
    exact .error _
  | case4 links place todo es access hes henter _ ih =>
    obtain ⟨es', hes'⟩ := hp.exists_directory hes
    rw [follow_dot hes' (by simpa using henter)]
    exact ih hp ht
  | case5 links place todo es access hes henter _ _ ih =>
    obtain ⟨es', hes'⟩ := hp.exists_directory hes
    rw [follow_parent hes' (by simpa using henter)]
    exact ih hp.up ht.up
  | case6 links place piece todo es access hes hne henter hdot hparent hlen =>
    obtain ⟨es', hes'⟩ := hp.exists_directory hes
    rw [follow_tooLong hes' ⟨hne, henter, hdot, hparent⟩ hlen]
    exact .error _
  | case7 links place piece todo es access hes hne henter hdot hparent hlen hnone =>
    refine .entry hp ht hes hnone ⟨hne, henter, hdot, hparent⟩ hlen fun o' hrel => ?_
    cases hrel
    exact .error _
  | case8 place piece todo es access hes hne henter hdot hparent hlen target hlink =>
    refine .entry hp ht hes hlink ⟨hne, henter, hdot, hparent⟩ hlen fun o' hrel => ?_
    cases hrel with
    | some h =>
      obtain rfl := h.eq_of_link.mp rfl
      exact .error _
  | case9 place piece todo es access hes hne henter hdot hparent hlen target hlink links start =>
    rename_i ih
    refine .entry hp ht hes hlink ⟨hne, henter, hdot, hparent⟩ hlen fun o' hrel => ?_
    cases hrel with
    | some h =>
      obtain rfl := h.eq_of_link.mp rfl
      have hstart : start.Legal := iteInduction (fun _ => .top hlegal) fun _ => ht
      exact ih (.ite ⟨rfl, hroot, .nil⟩ hp) hstart
  | case10 links place piece todo es access hes hne henter hdot hparent hlen t hlink hsome ih =>
    refine .entry hp ht hes hsome ⟨hne, henter, hdot, hparent⟩ hlen fun o' hrel => ?_
    cases hrel with
    | @some _ t' h =>
      rw [enterChild_of_not_link fun target ht' => hlink target (h.eq_of_link.mpr ht')]
      exact ih (hp.down piece h) (ht.entry hes hsome)
  | case11 links place piece todo hnot =>
    have hdir : place.tree.isDirectory = false := by
      rw [Bool.eq_false_iff]
      intro hdir
      obtain ⟨es, access, hes⟩ := Tree.isDirectory_iff.mp hdir
      exact hnot es access hes
    rw [follow_of_not_directory (hp.tree.isDirectory.trans hdir)]
    exact .error _

lemma descend_cons (place : Place) (name : Bytes) (names : List Bytes) :
    descend place (name :: names) =
      match place.tree.child? name with
      | none => .error .missing
      | some t => descend (place.down name t) names := by
  rw [descend]
  cases place.tree with
  | directory es access => rfl
  | file | link => rfl

lemma descend_reordered {place place' : Place} (names : List Bytes) (hp : place.Reordered place')
    (ht : place.Legal) : SameOutcome (descend place names) (descend place' names) := by
  induction names generalizing place place' with
  | nil => exact .ok hp
  | cons name names ih =>
    have hrel := hp.tree.child? ht.1 name
    rw [descend_cons, descend_cons]
    cases hsome : place.tree.child? name with
    | none =>
      rw [hsome] at hrel
      generalize place'.tree.child? name = o at hrel ⊢
      cases hrel
      exact .error _
    | some t =>
      rw [hsome] at hrel
      generalize place'.tree.child? name = o at hrel ⊢
      cases hrel with
      | some h => exact ih (hp.down name h) (ht.child hsome)

lemma find?_reordered {world world' : World} (hroot : world.root.Reordered world'.root)
    (hcwd : world'.cwd = world.cwd) (hlegal : world.root.Legal) (path : Bytes) :
    SameOutcome (world.find? path) (world'.find? path) := by
  have htop : (Place.top world.root).Reordered (.top world'.root) := ⟨rfl, hroot, .nil⟩
  rw [find?, find?, hcwd]
  split_ifs
  · exact .error _
  · exact .error _
  · exact .error _
  · exact follow_reordered hroot hlegal htop (.top hlegal)
  · have hstart := descend_reordered world.cwd htop (.top hlegal)
    cases hplace : descend (.top world.root) world.cwd with
    | error why =>
      rw [hplace] at hstart
      generalize descend (.top world'.root) world.cwd = r at hstart ⊢
      cases hstart
      exact .error why
    | ok place =>
      rw [hplace] at hstart
      generalize descend (.top world'.root) world.cwd = r at hstart ⊢
      cases hstart with
      | ok hp =>
        refine follow_reordered hroot hlegal hp ?_
        exact of_descend Place.Legal (fun _ _ _ _ _ hp hes ht => hp.entry hes ht) (.top hlegal)
          hplace

end World

end PathSieve
