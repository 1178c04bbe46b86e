import PathSieve.Proofs.Except
import PathSieve.Proofs.Glob.Steps

/-! Building, one move at a time. The pieces in front decide on an action, and the action changes
the innermost tokens and the open braces. What a pattern begins with is therefore built before the
rest of it is seen, and what it ends with is built alike above whatever stands before it. -/

namespace PathSieve.Glob

inductive Action where
  | push (t : Token)
  | opens
  | comma
  | closes
  | stars (s : Stars) (slash : Bool)

structure Move where
  action : Action
  last : Char
  rest : List Piece

def Action.ofChar (c : Char) : Action :=
  if c = '?' then .push .anyByte
  else if c = '*' then .push .anyRun
  else if c = '\x7b' then .opens
  else if c = '\x7d' then .closes
  else if c = ',' then .comma
  else .push (.literal c)

def Move.of (prev : Option Char) (inGroup atStart : Bool) : Piece → List Piece → Move
  | .plain '*', .plain '*' :: .plain '/' :: rest =>
    let s := Stars.of prev inGroup atStart [.plain '/']
    ⟨.stars s (!s.takesSlash), '/', rest⟩
  | .plain '*', .plain '*' :: rest => ⟨.stars (Stars.of prev inGroup atStart rest) false, '*', rest⟩
  | .plain c, rest => ⟨.ofChar c, c, rest⟩
  | .escaped c, rest => ⟨.push (.literal c), c, rest⟩
  | .members negated ranges, rest => ⟨.push (.member negated ranges), ']', rest⟩

def Action.apply : Action → List Group × List Token → Except Fault (List Group × List Token)
  | push t, (groups, ts) => .ok (groups, t :: ts)
  | opens, (groups, ts) => .ok (⟨ts, []⟩ :: groups, [])
  | comma, ([], ts) => .ok ([], .literal ',' :: ts)
  | comma, (g :: groups, ts) => .ok (⟨g.outer, ts.reverse :: g.branches⟩ :: groups, [])
  | closes, ([], _) => .error .unopenedGroup
  | closes, (g :: groups, ts) =>
    .ok (groups, .choice ((ts.reverse :: g.branches).reverse) :: g.outer)
  | stars s slash, (groups, ts) =>
    .ok (groups, if slash then .literal '/' :: s.apply ts else s.apply ts)

variable {fault : Option Fault} {prev : Option Char} {inGroup atStart : Bool}

lemma Move.length_rest (p : Piece) (ps : List Piece) :
    (Move.of prev inGroup atStart p ps).rest.length ≤ ps.length := by
  unfold Move.of
  split <;> simp
  omega

lemma Move.of_slash (rest : List Piece) :
    Move.of prev inGroup atStart (.plain '*') (.plain '*' :: .plain '/' :: rest) =
      ⟨.stars (Stars.of prev inGroup atStart [.plain '/'])
        (!(Stars.of prev inGroup atStart [.plain '/']).takesSlash), '/', rest⟩ := rfl

lemma Move.of_pair {rest : List Piece} (h : rest.head? ≠ some (.plain '/')) :
    Move.of prev inGroup atStart (.plain '*') (.plain '*' :: rest) =
      ⟨.stars (Stars.of prev inGroup atStart rest) false, '*', rest⟩ := by
  rw [Move.of]
  rintro r rfl
  exact h rfl

lemma Move.of_plain {c : Char} {ps : List Piece}
    (h : ¬ (c = '*' ∧ ps.head? = some (.plain '*'))) :
    Move.of prev inGroup atStart (.plain c) ps = ⟨.ofChar c, c, ps⟩ := by
  obtain ⟨h1, h2⟩ := not_pair c ps h
  rw [Move.of]
  · exact h1
  · exact h2

lemma build_cons (groups : List Group) (ts : List Token) (p : Piece) (ps : List Piece) :
    build fault prev groups ts (p :: ps) =
      (Move.of prev (!groups.isEmpty) ts.isEmpty p ps).action.apply (groups, ts) >>= fun s =>
        build fault (some (Move.of prev (!groups.isEmpty) ts.isEmpty p ps).last) s.1 s.2
          (Move.of prev (!groups.isEmpty) ts.isEmpty p ps).rest := by
  cases p with
  | escaped c =>
    rw [build]
    rfl
  | members negated ranges =>
    rw [build]
    rfl
  | plain c =>
    by_cases hpair : c = '*' ∧ ps.head? = some (.plain '*')
    · obtain ⟨rfl, hps⟩ := hpair
      obtain ⟨rest, rfl⟩ : ∃ rest, ps = .plain '*' :: rest := ⟨_, (List.cons_head?_tail hps).symm⟩
      by_cases hslash : rest.head? = some (.plain '/')
      · obtain ⟨rest, rfl⟩ : ∃ r, rest = .plain '/' :: r := ⟨_, (List.cons_head?_tail hslash).symm⟩
        rw [build.eq_3, Move.of_slash]
        cases (Stars.of prev (!groups.isEmpty) ts.isEmpty [.plain '/']) <;> rfl
      · rw [build.eq_4 _ _ _ _ _ (by rintro r rfl; exact hslash rfl), Move.of_pair hslash]
        rfl
    · obtain ⟨h1, h2⟩ := not_pair c ps hpair
      rw [Move.of_plain hpair, Action.ofChar]
      cases groups with
      | nil =>
        rw [build.eq_5 _ _ _ _ _ h1 h2]
        split_ifs <;> simp_all [Action.apply, bind, Except.bind]
      | cons g groups =>
        rw [build.eq_6 _ _ _ _ _ _ _ h1 h2]
        split_ifs <;> rfl

section Frame

def Stars.joins : Stars → Bool
  | between | below => true
  | twoRuns | before => false

lemma Stars.of_joins {rest : List Piece} (h : (Stars.of prev inGroup atStart rest).joins = true) :
    atStart = false ∧ (inGroup = false → prev = some '/') := by
  cases atStart with
  | true =>
    rw [Stars.of, if_pos rfl] at h
    split at h <;> cases h
  | false =>
    refine ⟨rfl, ?_⟩
    rintro rfl
    by_contra hp
    rw [stars_notFresh rfl hp] at h
    cases h

def padding (base : List Token) (groups : List Group) : List Token :=
  if groups.isEmpty then base else []

def raise (base : List Token) : List Group → List Group
  | [] => []
  | g :: groups => ⟨g.outer ++ padding base groups, g.branches⟩ :: raise base groups

def above (base : List Token) (s : List Group × List Token) : List Group × List Token :=
  (raise base s.1, s.2 ++ padding base s.1)

lemma isEmpty_above {base : List Token} (h : base ≠ []) (s : List Group × List Token) :
    (above base s).1.isEmpty = s.1.isEmpty ∧
      (above base s).2.isEmpty = (s.2.isEmpty && !s.1.isEmpty) := by
  obtain ⟨groups, us⟩ := s
  cases groups <;> simp [above, raise, padding, h]

lemma joinDirs_append {us : List Token} (h : us ≠ []) (atEnd : Bool) (base : List Token) :
    joinDirs atEnd (us ++ base) = joinDirs atEnd us ++ base := by
  obtain ⟨t, us, rfl⟩ := List.exists_cons_of_ne_nil h
  cases t <;> rfl

lemma Stars.apply_append {s : Stars} {us : List Token} (h : s.joins = true → us ≠ [])
    (base : List Token) : s.apply (us ++ base) = s.apply us ++ base := by
  cases s with
  | twoRuns => rfl
  | before => rfl
  | between => exact joinDirs_append (h rfl) false base
  | below => exact joinDirs_append (h rfl) true base

lemma Stars.apply_ne_nil {s : Stars} {us : List Token} (h : s.joins = true → us ≠ []) :
    s.apply us ≠ [] := by
  have hjoin : ∀ atEnd, us ≠ [] → joinDirs atEnd us ≠ [] := by
    intro atEnd hus
    obtain ⟨t, us, rfl⟩ := List.exists_cons_of_ne_nil hus
    cases t <;> simp [joinDirs]
  cases s with
  | twoRuns => exact List.cons_ne_nil _ _
  | before => exact List.cons_ne_nil _ _
  | between => exact hjoin false (h rfl)
  | below => exact hjoin true (h rfl)

def Action.joins : Action → Bool
  | stars s _ => s.joins
  | _ => false

lemma Action.joins_ofChar (c : Char) : (Action.ofChar c).joins = false := by
  unfold Action.ofChar
  split_ifs <;> rfl

lemma Action.apply_above {a : Action} {s : List Group × List Token}
    (h : a.joins = true → s.2 ≠ []) (base : List Token) :
    a.apply (above base s) = (a.apply s).map (above base) := by
  obtain ⟨groups, us⟩ := s
  cases a with
  | push t => rfl
  | opens => rfl
  | comma => cases groups <;> simp [above, raise, padding, apply, Except.map]
  | closes => cases groups <;> simp [above, raise, padding, apply, Except.map]
  | stars s slash =>
    have hs := Stars.apply_append (s := s) h (padding base groups)
    cases slash <;> simp [above, apply, hs, Except.map]

lemma Action.ne_nil_of_apply {a : Action} {s s' : List Group × List Token}
    (h : a.joins = true → s.2 ≠ []) (hs : a.apply s = .ok s') (hout : s'.1 = []) : s'.2 ≠ [] := by
  obtain ⟨groups, us⟩ := s
  cases a with
  | push t =>
    cases hs
    exact List.cons_ne_nil _ _
  | opens =>
    cases hs
    cases hout
  | comma =>
    cases groups with
    | nil =>
      cases hs
      exact List.cons_ne_nil _ _
    | cons g groups =>
      cases hs
      cases hout
  | closes =>
    cases groups with
    | nil => cases hs
    | cons g groups =>
      cases hs
      exact List.cons_ne_nil _ _
  | stars s slash =>
    cases hs
    cases slash with
    | false => exact Stars.apply_ne_nil h
    | true => exact List.cons_ne_nil _ _

lemma Move.of_joins {p : Piece} {ps : List Piece}
    (h : (Move.of prev inGroup atStart p ps).action.joins = true) :
    atStart = false ∧ (inGroup = false → prev = some '/') := by
  unfold Move.of at h
  split at h
  · exact Stars.of_joins h
  · exact Stars.of_joins h
  · simp [Action.joins_ofChar] at h
  · cases h
  · cases h

lemma exists_build_above (ps : List Piece) (prev : Option Char) (groups : List Group)
    (us : List Token) (h : groups = [] → prev = some '/' → us ≠ []) :
    ∃ r : Except Fault (List Token), ∀ base ≠ [],
      build none prev (above base (groups, us)).1 (above base (groups, us)).2 ps =
        r.map (base.reverse ++ ·) := by
  induction hn : ps.length using Nat.strongRecOn generalizing ps prev groups us with
  | ind n ih =>
    subst hn
    cases ps with
    | nil =>
      refine ⟨if groups.isEmpty then .ok us.reverse else .error .unclosedGroup, fun base _ => ?_⟩
      cases groups <;> simp [above, raise, padding, build_nil, Except.map]
    | cons p ps =>
      let m := Move.of prev (!groups.isEmpty) (us.isEmpty && !groups.isEmpty) p ps
      have hjoins : m.action.joins = true → us ≠ [] := by
        rintro hj rfl
        obtain ⟨hstart, hprev⟩ := Move.of_joins hj
        have hg : groups = [] := by simpa using hstart
        exact h hg (hprev (by simp [hg])) rfl
      have hbuild : ∀ base ≠ [],
          build none prev (above base (groups, us)).1 (above base (groups, us)).2 (p :: ps) =
            (m.action.apply (groups, us)).map (above base) >>= fun s =>
              build none (some m.last) s.1 s.2 m.rest := by
        intro base hbase
        obtain ⟨hg, hu⟩ := isEmpty_above hbase (groups, us)
        rw [build_cons, hg, hu, Prod.mk.eta, Action.apply_above hjoins]
      cases ha : m.action.apply (groups, us) with
      | error e =>
        refine ⟨.error e, fun base hbase => ?_⟩
        rw [hbuild base hbase, ha]
        rfl
      | ok s =>
        have hlen : m.rest.length < (p :: ps).length := Nat.lt_succ_of_le (Move.length_rest p ps)
        obtain ⟨r, hr⟩ := ih m.rest.length hlen m.rest (some m.last) s.1 s.2
          (fun hg _ => Action.ne_nil_of_apply hjoins ha hg) rfl
        refine ⟨r, fun base hbase => ?_⟩
        rw [hbuild base hbase, ha]
        exact hr base hbase

lemma exists_build_behind (ps : List Piece) : ∃ r : Except Fault (List Token),
    ∀ (prev : Option Char) (ts : List Token), prev ≠ some '/' → ts ≠ [] →
      build none prev [] ts ps = r.map (ts.reverse ++ ·) := by
  -- a character that is no slash is all the same to the first move
  have hprev : ∀ (prev : Option Char) (ts : List Token), prev ≠ some '/' → ts ≠ [] →
      build none prev [] ts ps = build none none [] ts ps := by
    intro prev ts hp hts
    cases ps with
    | nil => rw [build_nil, build_nil]
    | cons p ps =>
      have hts' : ts.isEmpty = false := by simpa using hts
      have hnone : (none : Option Char) ≠ some '/' := by simp
      have hm : Move.of prev false false p ps = Move.of none false false p ps := by
        unfold Move.of
        simp only [stars_notFresh rfl hp, stars_notFresh rfl hnone]
      rw [build_cons, build_cons, hts']
      exact congrArg (fun m : Move => m.action.apply ([], ts) >>= fun s =>
        build none (some m.last) s.1 s.2 m.rest) hm
  obtain ⟨r, hr⟩ := exists_build_above ps none [] [] (by simp)
  exact ⟨r, fun prev ts hp hts => (hprev prev ts hp hts).trans (hr ts hts)⟩

end Frame

section Front

lemma Move.of_append {p : Piece} {ps : List Piece} (h : ¬ (p = .plain '*' ∧ ps = [.plain '*']))
    {c : Char} (hstar : c = '*' → ¬ (p = .plain '*' ∧ ps = [])) (rest : List Piece) :
    Move.of prev inGroup atStart p (ps ++ .plain c :: rest) =
      ⟨(Move.of prev inGroup atStart p ps).action, (Move.of prev inGroup atStart p ps).last,
        (Move.of prev inGroup atStart p ps).rest ++ .plain c :: rest⟩ := by
  cases p with
  | escaped d => rfl
  | members negated ranges => rfl
  | plain d =>
    by_cases hpair : d = '*' ∧ ps.head? = some (.plain '*')
    · obtain ⟨rfl, hps⟩ := hpair
      obtain ⟨ps, rfl⟩ : ∃ r, ps = .plain '*' :: r := ⟨_, (List.cons_head?_tail hps).symm⟩
      -- a third piece is there, so the two stars are told by what they see of it
      obtain ⟨q, ps, rfl⟩ := List.exists_cons_of_ne_nil (l := ps) (by simpa using h)
      by_cases hq : q = .plain '/'
      · subst hq
        rfl
      · rw [List.cons_append, List.cons_append, Move.of_pair (by simpa using hq),
          Move.of_pair (by simpa using hq)]
        rfl
    · have hpair' : ¬ (d = '*' ∧ (ps ++ .plain c :: rest).head? = some (.plain '*')) := by
        cases ps with
        | nil =>
          rintro ⟨rfl, hc⟩
          exact hstar (by simpa using hc) ⟨rfl, rfl⟩
        | cons q ps => exact hpair
      rw [Move.of_plain hpair, Move.of_plain hpair']

lemma exists_build_before {groups : List Group} {ts out : List Token} {ps : List Piece}
    (h : build none prev groups ts ps = .ok out) :
    ∃ (last : Option Char) (us : List Token), ∀ (c : Char) (rest : List Piece), c ≠ '*' → c ≠ '/' →
      build none prev groups ts (ps ++ .plain c :: rest) =
        build none last [] us (.plain c :: rest) := by
  induction hn : ps.length using Nat.strongRecOn generalizing ps prev groups ts with
  | ind n ih =>
    subst hn
    cases ps with
    | nil =>
      cases groups with
      | nil => exact ⟨prev, ts, fun c rest _ _ => rfl⟩
      | cons g groups => simp [build_nil] at h
    | cons p ps =>
      by_cases hpair : p = .plain '*' ∧ ps = [.plain '*']
      · obtain ⟨rfl, rfl⟩ := hpair
        cases groups with
        | nil =>
          refine ⟨some '*', .anyRun :: .anyRun :: ts, fun c rest _ hslash => ?_⟩
          exact build_runs fun _ => ⟨.plain c, rest, rfl, by simpa using hslash⟩
        | cons g groups =>
          rw [build.eq_4 _ _ _ _ _ (by simp), build_nil] at h
          simp at h
      · rw [build_cons] at h
        obtain ⟨s, hs, h⟩ := Except.bind_ok.mp h
        obtain ⟨last, us, hrest⟩ := ih _ (Nat.lt_succ_of_le (Move.length_rest p ps)) h rfl
        refine ⟨last, us, fun c rest hstar hslash => ?_⟩
        rw [List.cons_append, build_cons, Move.of_append hpair fun hc => absurd hc hstar]
        dsimp only
        rw [hs]
        exact hrest c rest hstar hslash

end Front

end PathSieve.Glob
