import PathSieve.Proofs.Path
import PathSieve.Proofs.Text.Split
import PathSieve.Proofs.Tree.World

namespace PathSieve.World

section Cut

variable {root : Tree} {links links' : ℕ} {place place' : Place} {todo todo' more : List Bytes}

-- The links that are left at the cut are those that the first part has not used up.
def Cut (root : Tree) (links : ℕ) (place : Place) (todo : List Bytes) : Prop :=
  ∃ left p, ∀ rest, follow root links place (todo ++ rest) = follow root left p rest

lemma Cut.of_step (h : Cut root links' place' todo')
    (hstep : ∀ rest, follow root links place (todo ++ rest) =
      follow root links' place' (todo' ++ rest)) : Cut root links place todo := by
  obtain ⟨left, p, hp⟩ := h
  exact ⟨left, p, fun rest => (hstep rest).trans (hp rest)⟩

lemma cut_of_append {found : Place} (h : follow root links place (todo ++ more) = .ok found) :
    Cut root links place todo := by
  fun_induction follow root links place todo with
  | case1 links place => exact ⟨links, place, fun _ => rfl⟩
  | case2 _ _ _ _ _ hes ih =>
    rw [List.cons_append, follow_empty hes] at h
    exact (ih h).of_step fun rest => follow_empty hes _
  | case4 _ _ _ _ _ hes henter _ ih =>
    rw [Bool.not_eq_true', Bool.not_eq_false] at henter
    rw [List.cons_append, follow_dot hes henter] at h
    exact (ih h).of_step fun rest => follow_dot hes henter _
  | case5 _ _ _ _ _ hes henter _ _ ih =>
    rw [Bool.not_eq_true', Bool.not_eq_false] at henter
    rw [List.cons_append, follow_parent hes henter] at h
    exact (ih h).of_step fun rest => follow_parent hes henter _
  | case9 place piece todo es access hes hne henter hdot hparent hlen target ht links start ih =>
    have hstep (rest : List Bytes) : follow root (links + 1) place (piece :: todo ++ rest) =
        follow root links start (World.pieces target ++ todo ++ rest) := by
      rw [List.cons_append, follow_entry hes ⟨hne, henter, hdot, hparent⟩ hlen, ht,
        List.append_assoc]
      rfl
    exact (ih ((hstep more).symm.trans h)).of_step hstep
  | case10 links place piece todo es access hes hne henter hdot hparent hlen t hlink ht ih =>
    have hstep (rest : List Bytes) : follow root links place (piece :: todo ++ rest) =
        follow root links (place.down piece t) (todo ++ rest) := by
      rw [List.cons_append, follow_entry hes ⟨hne, henter, hdot, hparent⟩ hlen, ht,
        enterChild_of_not_link hlink]
    exact (ih ((hstep more).symm.trans h)).of_step hstep
  | case3 | case6 | case11 =>
    rw [List.cons_append, follow] at h
    simp_all
  | case7 | case8 =>
    rw [List.cons_append, follow] at h
    simp_all only [Bool.not_eq_true', if_false]
    cases h

end Cut

lemma pieces_join {directory name : Bytes} (hname : Path.IsName name) (hne : directory ≠ []) :
    ∃ front more, pieces directory = front ++ more ∧ (more = [] ∨ more = [[]]) ∧
      pieces (Path.join directory name) = front ++ [name] := by
  have hslash (s t : Bytes) : pieces (s ++ Path.slash :: t) = pieces s ++ pieces t :=
    Text.splitOn_append (p := (· == Path.slash)) (beq_self_eq_true Path.slash) s t
  have hsingle : pieces name = [name] := hname.splitOn
  obtain ⟨front, last, rfl⟩ := List.eq_nil_or_concat' directory |>.resolve_left hne
  rw [Path.join, hname.not_isAbsolute, if_neg Bool.false_ne_true, List.getLast?_concat]
  dsimp only
  split_ifs with hlast
  · refine ⟨pieces front, [[]], hlast ▸ hslash front [], Or.inr rfl, ?_⟩
    rw [hlast, List.append_assoc, List.singleton_append, hslash, hsingle]
  · refine ⟨pieces (front ++ [last]), [], (List.append_nil _).symm, Or.inl rfl, ?_⟩
    rw [hslash, hsingle]

lemma notMem_join {directory name : Bytes} {b : UInt8} (hb : b ≠ Path.slash)
    (hdirectory : b ∉ directory) (hname : b ∉ name) : b ∉ Path.join directory name := by
  rw [Path.join]
  split_ifs
  · exact hname
  · cases directory.getLast? with
    | none => exact hname
    | some last =>
      dsimp only
      split_ifs <;> simp [hb, hdirectory, hname]

lemma join_ne_nil {name : Bytes} (hname : name ≠ []) (directory : Bytes) :
    Path.join directory name ≠ [] := by
  rw [Path.join]
  split_ifs
  · exact hname
  · cases directory.getLast? with
    | none => exact hname
    | some last =>
      dsimp only
      split_ifs <;> simp [hname]

section Join

variable {root : Tree} {links : ℕ} {start place : Place} {es : List (Bytes × Tree)}
  {access : Access} {directory name : Bytes} {t : Tree}

lemma eq_of_follow_empty (h : follow root links start [[]] = .ok place) : start = place := by
  rw [follow] at h
  split at h
  · rw [if_pos rfl, follow] at h
    exact Except.ok.inj h
  · cases h

lemma follow_join (h : follow root links start (pieces directory) = .ok place)
    (hes : place.tree = .directory es access) (henter : access.canEnter = true)
    (hne : directory ≠ []) (hname : Path.IsName name) (hlen : name.length ≤ nameLimit)
    (ht : Tree.named? name es = some t) (hlink : ∀ target, t ≠ .link target) :
    follow root links start (pieces (Path.join directory name)) = .ok (place.down name t) := by
  obtain ⟨front, more, hpieces, hmore, hjoin⟩ := pieces_join hname hne
  rw [hpieces] at h
  obtain ⟨left, p, hp⟩ := cut_of_append h
  rw [hp] at h
  have hplace : p = place := by
    rcases hmore with rfl | rfl
    · rw [follow] at h
      exact Except.ok.inj h
    · exact eq_of_follow_empty h
  rw [hjoin, hp, hplace, follow_name hes henter hname hlen ht hlink, follow]

end Join

def Holds (world : World) (directory name : Bytes) (access : Access) : Prop :=
  ∃ place es t, world.find? directory = .ok place ∧ place.tree = .directory es access ∧
    Tree.named? name es = some t ∧ t.isFile = true

theorem hasFile_join {world : World} {directory name : Bytes} {access : Access}
    (h : world.Holds directory name access) (henter : access.canEnter = true)
    (hname : Path.IsName name) (hnul : 0 ∉ name) (hlen : name.length ≤ nameLimit)
    (hpath : (Path.join directory name).length < pathLimit) :
    world.hasFile (Path.join directory name) = true := by
  obtain ⟨place, es, t, hfind, hes, ht, hfile⟩ := h
  have hlink (target : Bytes) : t ≠ .link target := by
    rintro rfl
    cases hfile
  have hfound : world.find? (Path.join directory name) = .ok (place.down name t) := by
    rw [find?] at hfind ⊢
    simp only [List.contains_iff_mem] at hfind ⊢
    split_ifs at hfind with hzero hlong hne habsolute
    all_goals
      rw [if_neg (notMem_join (by decide) hzero hnul), if_neg (Nat.not_le.mpr hpath),
        if_neg (join_ne_nil hname.1 directory), Path.isAbsolute_join hname.not_isAbsolute]
    · rw [if_pos habsolute]
      exact follow_join hfind hes henter hne hname hlen ht hlink
    · rw [if_neg habsolute]
      obtain ⟨start, hstart, hfind⟩ := Except.bind_ok.mp hfind
      rw [hstart]
      exact follow_join hfind hes henter hne hname hlen ht hlink
  rw [hasFile, hfound]
  exact hfile

end PathSieve.World
