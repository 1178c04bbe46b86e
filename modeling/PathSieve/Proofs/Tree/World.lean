import PathSieve.Proofs.Except
import PathSieve.Proofs.Tree
import PathSieve.Tree.World

namespace PathSieve.World

def Place.Legal (place : Place) : Prop := place.tree.Legal ∧ ∀ t ∈ place.above, t.Legal

lemma Place.Legal.up {place : Place} (h : place.Legal) : place.up.Legal := by
  obtain ⟨names, tree, above⟩ := place
  match names, above with
  | [], _ => exact h
  | _ :: _, [] => exact h
  | _ :: _, t :: above =>
    exact ⟨h.2 t List.mem_cons_self, fun u hu => h.2 u (List.mem_cons_of_mem t hu)⟩

lemma Place.Legal.down {place : Place} (h : place.Legal) (name : Bytes) {t : Tree} (ht : t.Legal) :
    (place.down name t).Legal :=
  ⟨ht, List.forall_mem_cons.mpr ⟨h.1, h.2⟩⟩

section Follow

variable {root : Tree} {links : ℕ} {place : Place} {es : List (Bytes × Tree)} {access : Access}

lemma follow_empty (hes : place.tree = .directory es access) (todo : List Bytes) :
    follow root links place ([] :: todo) = follow root links place todo := by
  rw [follow, hes]
  exact if_pos rfl

lemma follow_replicate_empty (hes : place.tree = .directory es access) (n : ℕ) :
    follow root links place (List.replicate n []) = .ok place := by
  induction n with
  | zero => rw [List.replicate_zero, follow]
  | succ n ih => rw [List.replicate_succ, follow_empty hes, ih]

lemma follow_dot (hes : place.tree = .directory es access) (henter : access.canEnter = true)
    (todo : List Bytes) :
    follow root links place ([Path.dot] :: todo) = follow root links place todo := by
  rw [follow, hes]
  simp [henter]

lemma follow_parent (hes : place.tree = .directory es access) (henter : access.canEnter = true)
    (todo : List Bytes) :
    follow root links place ([Path.dot, Path.dot] :: todo) = follow root links place.up todo := by
  rw [follow, hes]
  simp [henter]

structure IsEntry (access : Access) (piece : Bytes) : Prop where
  ne_nil : piece ≠ []
  enter : ¬ (!access.canEnter) = true
  ne_dot : piece ≠ [Path.dot]
  ne_parent : piece ≠ [Path.dot, Path.dot]

lemma isEntry_of_isName {name : Bytes} (hname : Path.IsName name)
    (henter : access.canEnter = true) : IsEntry access name where
  ne_nil := hname.1
  enter := by simp [henter]
  ne_dot := hname.2.2.1
  ne_parent := hname.2.2.2

/-- Goes on with what a directory has under a name. -/
def enterChild (root : Tree) (links : ℕ) (place : Place) (piece : Bytes) (todo : List Bytes) :
    Option Tree → Except Refusal Place
  | none => .error .missing
  | some (.link target) =>
    match links with
    | 0 => .error .tooManyLinks
    | links + 1 =>
      follow root links (if Path.isAbsolute target then .top root else place)
        (pieces target ++ todo)
  | some t => follow root links (place.down piece t) todo

lemma enterChild_of_not_link {t : Tree} (h : ∀ target, t ≠ .link target) (links : ℕ) (place : Place)
    (piece : Bytes) (todo : List Bytes) :
    enterChild root links place piece todo (some t) =
      follow root links (place.down piece t) todo := by
  cases t with
  | link target => exact absurd rfl (h target)
  | file | directory => rfl

lemma follow_tooLong (hes : place.tree = .directory es access) {piece : Bytes}
    (h : IsEntry access piece) (hlen : nameLimit < piece.length) (todo : List Bytes) :
    follow root links place (piece :: todo) = .error .nameTooLong := by
  rw [follow, hes]
  dsimp only
  rw [if_neg h.ne_nil, if_neg h.enter, if_neg h.ne_dot, if_neg h.ne_parent, if_pos hlen]

lemma follow_entry (hes : place.tree = .directory es access) {piece : Bytes}
    (h : IsEntry access piece) (hlen : ¬ nameLimit < piece.length) (todo : List Bytes) :
    follow root links place (piece :: todo) =
      enterChild root links place piece todo (Tree.named? piece es) := by
  rw [follow, hes]
  dsimp only
  rw [if_neg h.ne_nil, if_neg h.enter, if_neg h.ne_dot, if_neg h.ne_parent, if_neg hlen]
  cases Tree.named? piece es with
  | none => rfl
  | some t => cases t <;> cases links <;> rfl

lemma follow_name (hes : place.tree = .directory es access) (henter : access.canEnter = true)
    {name : Bytes} (hname : Path.IsName name) (hlen : name.length ≤ nameLimit) {t : Tree}
    (ht : Tree.named? name es = some t) (hlink : ∀ target, t ≠ .link target) (todo : List Bytes) :
    follow root links place (name :: todo) = follow root links (place.down name t) todo := by
  rw [follow_entry hes (isEntry_of_isName hname henter) (Nat.not_lt.mpr hlen), ht,
    enterChild_of_not_link hlink]

lemma follow_of_not_directory (h : place.tree.isDirectory = false) (piece : Bytes)
    (todo : List Bytes) : follow root links place (piece :: todo) = .error .notDirectory := by
  rw [follow]
  cases hes : place.tree with
  | directory es access =>
    rw [hes] at h
    cases h
  | file | link => rfl

end Follow

lemma of_follow (p : Place → Prop) {root : Tree} (htop : p (.top root))
    (hup : ∀ place, p place → p place.up)
    (hdown : ∀ place es access name t, p place → place.tree = .directory es access →
      Tree.named? name es = some t → p (place.down name t))
    {links : ℕ} {place found : Place} {todo : List Bytes} (hp : p place)
    (h : follow root links place todo = .ok found) : p found := by
  fun_induction follow root links place todo with
  | case1 =>
    cases h
    exact hp
  | case2 _ _ _ _ _ _ ih => exact ih hp h
  | case4 _ _ _ _ _ _ _ _ ih => exact ih hp h
  | case5 _ _ _ _ _ _ _ _ _ ih => exact ih (hup _ hp) h
  | case3 | case6 | case7 | case8 | case11 => cases h
  | case9 _ _ _ _ _ _ _ _ _ _ _ _ _ _ start ih =>
    have hstart : p start := iteInduction (fun _ => htop) fun _ => hp
    exact ih hstart h
  | case10 _ place name _ es access hes _ _ _ _ _ t _ ht ih =>
    exact ih (hdown place es access name t hp hes ht) h

lemma of_descend (p : Place → Prop)
    (hdown : ∀ place es access name t, p place → place.tree = .directory es access →
      Tree.named? name es = some t → p (place.down name t))
    {place found : Place} {names : List Bytes} (hp : p place)
    (h : descend place names = .ok found) : p found := by
  fun_induction descend place names with
  | case1 =>
    cases h
    exact hp
  | case2 | case4 => cases h
  | case3 place name _ es access hes t ht ih => exact ih (hdown place es access name t hp hes ht) h

lemma Place.Legal.top {root : Tree} (h : root.Legal) : (Place.top root).Legal :=
  ⟨h, fun _ ht => absurd ht List.not_mem_nil⟩

lemma Place.Legal.entry {place : Place} (h : place.Legal) {es : List (Bytes × Tree)}
    {access : Access} (hes : place.tree = .directory es access) {name : Bytes} {t : Tree}
    (ht : Tree.named? name es = some t) : (place.down name t).Legal := by
  have hlegal := h.1
  rw [hes] at hlegal
  exact h.down name (hlegal.child (Tree.mem_of_named ht)).2

lemma of_find? (p : Place → Prop) {world : World} (htop : p (.top world.root))
    (hup : ∀ place, p place → p place.up)
    (hdown : ∀ place es access name t, p place → place.tree = .directory es access →
      Tree.named? name es = some t → p (place.down name t))
    {path : Bytes} {found : Place} (h : world.find? path = .ok found) : p found := by
  rw [find?] at h
  split_ifs at h
  · exact of_follow p htop hup hdown htop h
  · obtain ⟨start, hstart, h⟩ := Except.bind_ok.mp h
    exact of_follow p htop hup hdown (of_descend p hdown htop hstart) h

lemma legal_of_find? {world : World} (hroot : world.root.Legal) {path : Bytes} {place : Place}
    (h : world.find? path = .ok place) : place.tree.Legal :=
  (of_find? Place.Legal (.top hroot) (fun _ => Place.Legal.up)
    (fun _ _ _ _ _ hp hes ht => hp.entry hes ht) h).1

lemma find?_dot {es : List (Bytes × Tree)} {access : Access} (henter : access.canEnter = true) :
    World.find? ⟨.directory es access, []⟩ [Path.dot] = .ok (.top (.directory es access)) := by
  have hfollow : World.find? ⟨.directory es access, []⟩ [Path.dot] =
      follow (.directory es access) linkLimit (.top (.directory es access)) [[Path.dot]] := rfl
  rw [hfollow, follow_dot rfl henter, follow]

def holding (content : Bytes) : World :=
  ⟨.directory [([0x63], .file content false true)] .free, []⟩

lemma read_holding (content : Bytes) : (holding content).read [0x63] = .ok content := by
  have hfollow : (holding content).find? [0x63] =
      follow (holding content).root linkLimit (.top (holding content).root) [[0x63]] := rfl
  rw [read, hfollow, follow_name rfl rfl (by decide) (by decide) rfl (by simp), follow]
  rfl

end PathSieve.World
