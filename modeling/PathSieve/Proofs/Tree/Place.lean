import PathSieve.Proofs.Tree.World

namespace PathSieve.World

inductive Place.Standing (root : Tree) : Place → Prop
  | top : Standing root (.top root)
  | down {place : Place} {es : List (Bytes × Tree)} {access : Access} {name : Bytes} {t : Tree} :
      Standing root place → place.tree = .directory es access → Tree.named? name es = some t →
      Standing root (place.down name t)

variable {root : Tree} {place : Place}

lemma Place.Standing.up (h : place.Standing root) : place.up.Standing root := by
  cases h with
  | top => exact .top
  | down h => exact h

lemma descend_append {names more : List Bytes} {start : Place}
    (h : descend start names = .ok place) :
    descend start (names ++ more) = descend place more := by
  fun_induction descend start names with
  | case1 =>
    cases h
    rfl
  | case2 | case4 => cases h
  | case3 start name names es access hes t ht ih =>
    rw [List.cons_append, descend, hes]
    dsimp only
    rw [ht]
    exact ih h

lemma Place.Standing.descend (h : place.Standing root) :
    descend (.top root) place.names.reverse = .ok place := by
  induction h with
  | top => rfl
  | @down place es access name t _ hes ht ih =>
    have hnames : (place.down name t).names.reverse = place.names.reverse ++ [name] :=
      List.reverse_cons
    rw [hnames, descend_append ih, World.descend, hes]
    dsimp only
    rw [ht]
    rfl

lemma standing_of_find? {world : World} {path : Bytes} (h : world.find? path = .ok place) :
    place.Standing world.root :=
  of_find? (·.Standing world.root) .top (fun _ => Place.Standing.up)
    (fun _ _ _ _ _ hp hes ht => hp.down hes ht) h

lemma find?_enter {world : World} (h : place.Standing world.root) {es : List (Bytes × Tree)}
    {access : Access} (hes : place.tree = .directory es access) (henter : access.canEnter = true) :
    (world.enter place).find? [Path.dot, Path.slash] = .ok place := by
  have hfollow : (world.enter place).find? [Path.dot, Path.slash] =
      (descend (.top world.root) place.names.reverse >>= fun start =>
        follow world.root linkLimit start [[Path.dot], []]) := rfl
  rw [hfollow, h.descend]
  show follow _ _ _ _ = _
  rw [follow_dot hes henter, follow_empty hes, World.follow]

end PathSieve.World
