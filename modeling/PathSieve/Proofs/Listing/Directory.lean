import PathSieve.Proofs.Listing.Lines
import PathSieve.Proofs.Tree.Order

/-! A listing depends on the directory and not on how the root is spelled, unless the root is the
spelling of standard input. -/

namespace PathSieve.Listing.Walk

open PathSieve.Tree (Entry)

def lines (depth : ℕ) (isSorted : Bool) (t : Tree) : List Text :=
  ((walked isSorted t).entries (fun _ => true) depth []).filterMap entryLine?

variable {root : Bytes} {t : Tree}

lemma reached_eq (ht : t.Legal) (hlimit : WithinLimit root t) (hopen : t.IsOpen) (depth : ℕ)
    (isSorted : Bool) :
    reached root depth isSorted t = (walked isSorted t).entries (fun _ => true) depth [] :=
  Tree.entries_congr depth [] _ fun _ _ _ hu => opens_walked ht hlimit hopen hu

lemma value_list_lines {world : World} {place : World.Place} (hroot : world.find? root = .ok place)
    (hdir : place.tree.isDirectory) (ht : place.tree.Legal) (hlimit : WithinLimit root place.tree)
    (hopen : place.tree.IsOpen) (hin : isInput root = false) (depth : ℕ) (isSorted : Bool) :
    (list world root depth isSorted).value = .ok (lines depth isSorted place.tree) := by
  rw [value_list (root_ok_of_isOpen hroot hdir hopen) ht hin, reached_eq ht hlimit hopen, lines]

lemma exists_lines (h : t.isDirectory) (depth : ℕ) (isSorted : Bool) :
    ∃ rest, lines depth isSorted t = Listed.mark :: rest := by
  have hwalked : (walked isSorted t).isDirectory = true := by
    cases isSorted with
    | false => exact h
    | true => exact (Tree.isDirectory_sorted t).trans h
  obtain ⟨es, access, hes⟩ := Tree.isDirectory_iff.mp hwalked
  rw [lines, hes, Tree.entries, List.filterMap_cons, entryLine?_root]
  exact ⟨_, rfl⟩

lemma lines_perm {t' : Tree} (h : t.Reordered t') (ht : t.Legal) (depth : ℕ) (isSorted : Bool) :
    (lines depth isSorted t).Perm (lines depth isSorted t') := by
  cases isSorted with
  | false => exact (h.entries depth []).filterMap _
  | true =>
    have hsorted : walked true t = walked true t' := h.sorted_eq ht
    rw [lines, lines, hsorted]

lemma lines_sorted {t' : Tree} (h : t.Reordered t') (ht : t.Legal) (depth : ℕ) :
    lines depth true t = lines depth true t' := by
  have hsorted : walked true t = walked true t' := h.sorted_eq ht
  rw [lines, lines, hsorted]

def Agree (isSorted : Bool) (a b : Except Failure (List Text)) : Prop :=
  ∃ as bs, a = .ok (Listed.mark :: as) ∧ b = .ok (Listed.mark :: bs) ∧ as.Perm bs ∧
    (isSorted → as = bs)

lemma agree_lines {t' : Tree} (h : t.Reordered t') (hdir : t.isDirectory) (ht : t.Legal) (depth : ℕ)
    (isSorted : Bool) :
    Agree isSorted (.ok (lines depth isSorted t)) (.ok (lines depth isSorted t')) := by
  obtain ⟨as, has⟩ := exists_lines hdir depth isSorted
  obtain ⟨bs, hbs⟩ := exists_lines (h.isDirectory.trans hdir) depth isSorted
  have hperm := lines_perm h ht depth isSorted
  rw [has, hbs] at hperm ⊢
  refine ⟨as, bs, rfl, rfl, hperm.cons_inv, ?_⟩
  rintro rfl
  rw [lines_sorted h ht, hbs] at has
  exact (List.cons.inj has).2.symm

lemma not_isInput_of_head {world : World} {place : World.Place} {depth : ℕ} {isSorted : Bool}
    {rest : List Text} (hroot : Listing.root world root = .ok place)
    (h : (list world root depth isSorted).value = .ok (Listed.mark :: rest)) :
    isInput root = false := by
  rw [Bool.eq_false_iff]
  intro hin
  rw [value_list_input hroot hin] at h
  have hmark := (List.cons.inj (Except.ok.inj h)).1
  revert hmark
  decide

/-- Both roots lead to one directory; the second listing may find it, and every directory below it,
in another order. -/
theorem list_agree_iff {world world' : World} {a b : Bytes} {place place' : World.Place}
    (hlegal : world.root.Legal) (ha : world.find? a = .ok place) (hb : world'.find? b = .ok place')
    (hdir : place.tree.isDirectory) (hsame : place.tree.Reordered place'.tree)
    (hlimit : WithinLimit a place.tree) (hlimit' : WithinLimit b place'.tree)
    (hopen : place.tree.IsOpen) (depth : ℕ) (isSorted : Bool) :
    Agree isSorted (list world a depth isSorted).value (list world' b depth isSorted).value ↔
      isInput a = false ∧ isInput b = false := by
  have ht := World.legal_of_find? hlegal ha
  have hdir' := hsame.isDirectory.trans hdir
  have hopen' := hsame.isOpen hopen
  constructor
  · rintro ⟨as, bs, has, hbs, -⟩
    exact ⟨not_isInput_of_head (root_ok_of_isOpen ha hdir hopen) has,
      not_isInput_of_head (root_ok_of_isOpen hb hdir' hopen') hbs⟩
  · rintro ⟨hina, hinb⟩
    rw [value_list_lines ha hdir ht hlimit hopen hina,
      value_list_lines hb hdir' (hsame.legal ht) hlimit' hopen' hinb]
    exact agree_lines hsame hdir ht depth isSorted

def turnedTree : Tree :=
  .directory [([0x63, 0xFF], .link [0x2D]), ([0x2D], hyphenTree), ([0x61], .file [] false true)]
    .free

def turned : World := ⟨turnedTree, []⟩

def detour : Bytes := [Path.dot, Path.slash, 0x2D, Path.slash, Path.dot, Path.dot]

lemma find?_detour : turned.find? detour = .ok (.top turnedTree) := by
  have h : turned.find? detour = World.follow turnedTree World.linkLimit (.top turnedTree)
      [[Path.dot], [0x2D], [Path.dot, Path.dot]] := rfl
  rw [h, World.follow_dot rfl rfl,
    World.follow_name rfl rfl (by decide) (by decide) rfl (by simp [hyphenTree]),
    World.follow_parent rfl rfl, World.follow]
  rfl

lemma reordered_sample : sampleTree.Reordered turnedTree := .swap _ (List.reverse_perm _).symm

lemma withinLimit_detour : WithinLimit detour turnedTree := by
  intro names es access h
  cases h with
  | here => decide
  | inside ht h =>
    simp only [List.mem_cons, List.not_mem_nil, or_false, Prod.mk.injEq] at ht
    rcases ht with ⟨rfl, rfl⟩ | ⟨rfl, rfl⟩ | ⟨rfl, rfl⟩
    · cases h
    · obtain ⟨rfl, -⟩ := of_at_hyphen h
      decide
    · cases h

theorem list_agree_iff_detour :
    sample.root.Legal ∧ sample.find? [Path.dot] = .ok (.top sampleTree) ∧
      turned.find? detour = .ok (.top turnedTree) ∧ sampleTree.Reordered turnedTree ∧
      WithinLimit [Path.dot] sampleTree ∧ WithinLimit detour turnedTree ∧ sampleTree.IsOpen ∧
      Agree true (list sample [Path.dot] 2 true).value (list turned detour 2 true).value := by
  refine ⟨legal_sample, find?_sample, find?_detour, reordered_sample, withinLimit_sample,
    withinLimit_detour, isOpen_sample, ?_⟩
  exact (list_agree_iff legal_sample find?_sample find?_detour rfl reordered_sample
    withinLimit_sample withinLimit_detour isOpen_sample 2 true).mpr ⟨by decide, by decide⟩

lemma find?_bare : sample.find? [0x2D] = .ok hyphenPlace := by
  have h : sample.find? [0x2D] =
      World.follow sampleTree World.linkLimit (.top sampleTree) [[0x2D]] := rfl
  rw [h, World.follow_name rfl rfl (by decide) (by decide) rfl (by simp [hyphenTree]),
    World.follow]
  rfl

lemma find?_dotted : sample.find? [Path.dot, Path.slash, 0x2D] = .ok hyphenPlace := by
  have h : sample.find? [Path.dot, Path.slash, 0x2D] =
      World.follow sampleTree World.linkLimit (.top sampleTree) [[Path.dot], [0x2D]] := rfl
  rw [h, World.follow_dot rfl rfl,
    World.follow_name rfl rfl (by decide) (by decide) rfl (by simp [hyphenTree]), World.follow]
  rfl

theorem not_list_agree :
    ¬ ∀ (world : World) (a b : Bytes) (place : World.Place) (depth : ℕ) (isSorted : Bool),
      world.root.Legal → world.find? a = .ok place → world.find? b = .ok place →
      place.tree.isDirectory → WithinLimit a place.tree → WithinLimit b place.tree →
      place.tree.IsOpen →
      Agree isSorted (list world a depth isSorted).value (list world b depth isSorted).value := by
  intro h
  -- the directory `-` is listed when it is written `./-`, but not when it is written `-`
  obtain ⟨as, -, has, -⟩ := h sample [0x2D] [Path.dot, Path.slash, 0x2D] hyphenPlace 1 true
    legal_sample find?_bare find?_dotted rfl (withinLimit_hyphen (by decide))
    (withinLimit_hyphen (by decide)) isOpen_hyphen
  have hin := not_isInput_of_head (root_ok find?_bare rfl rfl) has
  revert hin
  decide

end PathSieve.Listing.Walk
