import PathSieve.Proofs.Glob.Method
import PathSieve.Proofs.Glob.Move

/-! A star behind a pattern. Whatever the pattern ends with, the star is read, alone or together
with a star in front of it, and the tokens that come out end in one that covers any rest. -/

namespace PathSieve.Glob

inductive Joinable : List Token → Prop
  | slash (ts : List Token) : Joinable (.literal '/' :: ts)
  | between (ts : List Token) : Joinable (.dirsBetween :: ts)
  | before : Joinable [.dirsBefore]

def EndsSlash (prev : Option Char) (groups : List Group) (ts : List Token) : Prop :=
  groups = [] → prev = some '/' → Joinable ts

variable {prev : Option Char} {groups : List Group} {ts : List Token}

lemma EndsSlash.of_ne (h : prev ≠ some '/') : EndsSlash prev groups ts := fun _ hp => absurd hp h

lemma EndsSlash.char (c : Char) : EndsSlash (some c) groups (.literal c :: ts) := by
  rintro - ⟨⟩
  exact .slash ts

lemma Joinable.joined (h : Joinable ts) : Joinable (joinDirs false ts) := by
  cases h with
  | slash ts => exact .between ts
  | between ts => exact .between ts
  | before => exact .before

lemma Stars.of_before {inGroup atStart : Bool} {rest : List Piece}
    (h : Stars.of prev inGroup atStart rest = .before) : atStart = true := by
  rw [Stars.of] at h
  split_ifs at h with hstart
  · exact hstart
  · split at h
    · cases h
    · cases h
    · split_ifs at h
    · cases h

lemma EndsSlash.stars {s : Stars} (h : EndsSlash prev groups ts)
    (hs : s = Stars.of prev (!groups.isEmpty) ts.isEmpty [.plain '/'])
    (htakes : s.takesSlash = true) :
    EndsSlash (some '/') groups (s.apply ts) := by
  rintro rfl -
  cases s with
  | twoRuns | below => cases htakes
  | before =>
    obtain rfl : ts = [] := by simpa using Stars.of_before hs.symm
    exact .before
  | between =>
    have hjoins : (Stars.of prev false ts.isEmpty [.plain '/']).joins = true :=
      congrArg Stars.joins hs.symm
    exact (h rfl ((Stars.of_joins hjoins).2 rfl)).joined

lemma EndsSlash.move {p : Piece} {ps : List Piece} {s : List Group × List Token}
    (h : EndsSlash prev groups ts)
    (hs : (Move.of prev (!groups.isEmpty) ts.isEmpty p ps).action.apply (groups, ts) = .ok s) :
    EndsSlash (some (Move.of prev (!groups.isEmpty) ts.isEmpty p ps).last) s.1 s.2 := by
  cases p with
  | escaped c =>
    cases hs
    exact .char c
  | members negated ranges => exact .of_ne (by simp [Move.of])
  | plain c =>
    by_cases hpair : c = '*' ∧ ps.head? = some (.plain '*')
    · obtain ⟨rfl, hps⟩ := hpair
      obtain ⟨rest, rfl⟩ : ∃ rest, ps = .plain '*' :: rest := ⟨_, (List.cons_head?_tail hps).symm⟩
      by_cases hslash : rest.head? = some (.plain '/')
      · obtain ⟨rest, rfl⟩ : ∃ r, rest = .plain '/' :: r := ⟨_, (List.cons_head?_tail hslash).symm⟩
        rw [Move.of_slash] at hs ⊢
        cases hs
        cases htakes : (Stars.of prev (!groups.isEmpty) ts.isEmpty [.plain '/']).takesSlash with
        | false => exact .char '/'
        | true => exact h.stars rfl htakes
      · rw [Move.of_pair hslash]
        exact .of_ne (by simp)
    · rw [Move.of_plain hpair] at hs ⊢
      by_cases hc : c = '/'
      · subst hc
        cases hs
        exact .char '/'
      · exact .of_ne (by simpa using hc)

def IsOpen (ts : List Token) : Prop :=
  ts = [.dirsBefore] ∨ ts.getLast? = some .anyRun ∨ ts.getLast? = some .allBelow

lemma IsOpen.concat_anyRun (ts : List Token) : IsOpen (ts ++ [.anyRun]) :=
  Or.inr (Or.inl List.getLast?_concat)

lemma build_lastStar : build none prev [] ts [.plain '*'] = .ok (ts.reverse ++ [.anyRun]) := by
  have hletter : build none prev [] ts [.plain '*'] = build none (some '*') [] (.anyRun :: ts) [] :=
    build_letter (l := .plain '*') (by simp) (by simp) (by simp) (by simp)
  rw [hletter, build_nil]
  simp

lemma exists_build_lastStars (h : EndsSlash prev [] ts) :
    ∃ out, build none prev [] ts [.plain '*', .plain '*'] = .ok out ∧ IsOpen out ∧
      ∀ bs, .choice bs ∈ out ↔ .choice bs ∈ ts := by
  by_cases hfresh : ts = [] ∨ prev = some '/'
  · refine ⟨_, build_dirsLast hfresh, ?_⟩
    by_cases hts : ts = []
    · subst hts
      exact ⟨Or.inl rfl, by simp⟩
    rw [if_neg hts]
    cases h rfl (hfresh.resolve_left hts) with
    | slash ts => exact ⟨Or.inr (Or.inr (by simp [joinDirs])), by simp [joinDirs]⟩
    | between ts => exact ⟨Or.inr (Or.inr (by simp [joinDirs])), by simp [joinDirs]⟩
    | before => exact ⟨Or.inl rfl, by simp [joinDirs]⟩
  · have hbuild : build none prev [] ts [.plain '*', .plain '*'] =
        build none (some '*') [] (.anyRun :: .anyRun :: ts) [] :=
      build_runs fun hf => absurd hf hfresh
    refine ⟨ts.reverse ++ [.anyRun] ++ [.anyRun], ?_, .concat_anyRun _, by simp⟩
    rw [hbuild, build_nil]
    simp

lemma exists_build_star {ps : List Piece} {out : List Token} (hslash : EndsSlash prev groups ts)
    (h : build none prev groups ts ps = .ok out) :
    ∃ out', build none prev groups ts (ps ++ [.plain '*']) = .ok out' ∧ IsOpen out' ∧
      ∀ bs, .choice bs ∈ out' → .choice bs ∈ out := by
  induction hn : ps.length using Nat.strongRecOn generalizing ps prev groups ts with
  | ind n ih =>
    subst hn
    by_cases hstars : ps = [] ∨ ps = [.plain '*'] ∨ ps = [.plain '*', .plain '*']
    · -- the star at the end is read together with the stars in front of it, two at most
      obtain rfl : groups = [] := by
        have hb := (balanced_of_build h).2
        rcases hstars with rfl | rfl | rfl <;> simpa [balanced] using hb
      rcases hstars with rfl | rfl | rfl
      · cases h
        exact ⟨_, build_lastStar, .concat_anyRun _, by simp⟩
      · obtain ⟨out', hout', hopen, hchoice⟩ := exists_build_lastStars hslash
        rw [build_lastStar] at h
        cases h
        exact ⟨out', hout', hopen, by simp [hchoice]⟩
      · obtain ⟨_, hout, -, hchoice⟩ := exists_build_lastStars hslash
        obtain rfl := Except.ok.inj (h.symm.trans hout)
        refine ⟨_, (build_runs fun _ => ⟨_, _, rfl, by simp⟩).trans build_lastStar,
          .concat_anyRun _, by simp [hchoice]⟩
    · obtain ⟨hnil, hone, htwo⟩ : ps ≠ [] ∧ ps ≠ [.plain '*'] ∧ ps ≠ [.plain '*', .plain '*'] := by
        simpa [not_or] using hstars
      obtain ⟨p, ps, rfl⟩ := List.exists_cons_of_ne_nil hnil
      rw [build_cons] at h
      obtain ⟨s, hs, h⟩ := Except.bind_ok.mp h
      obtain ⟨out', hout', hopen⟩ :=
        ih _ (Nat.lt_succ_of_le (Move.length_rest p ps)) (hslash.move hs) h rfl
      refine ⟨out', ?_, hopen⟩
      rw [List.cons_append, build_cons,
        Move.of_append (by rintro ⟨rfl, rfl⟩; exact htwo rfl)
          (fun _ => by rintro ⟨rfl, rfl⟩; exact hone rfl)]
      dsimp only
      rw [hs]
      exact hout'

lemma exists_parse_star {q : Text} {ts : List Token} (h : parse q = .ok ts) :
    ∃ out, parse (q ++ ['*']) = .ok out ∧ IsOpen out ∧
      ∀ bs, .choice bs ∈ out → .choice bs ∈ ts := by
  rw [parse_eq] at h
  obtain ⟨hfault, -⟩ := balanced_of_build h
  have hstar : pieces ['*'] = ([.plain '*'], none) := by rfl
  rw [hfault] at h
  obtain ⟨out, hout⟩ := exists_build_star (.of_ne (by simp)) h
  refine ⟨out, ?_⟩
  rwa [parse_eq, pieces_append hfault, hstar]

section Language

open Positions

lemma mem_language_append (h : IsOpen ts) (hne : ts ≠ [.dirsBefore]) {s : Bytes}
    (hs : s ∈ language ts) (t : Bytes) : s ++ t ∈ language ts := by
  have hlast : ∃ l : Language UInt8, language ts = l * ⊤ := by
    rcases h.resolve_left hne with hlast | hlast
    · refine ⟨language ts.dropLast, ?_⟩
      rw [← List.dropLast_append_getLast? _ hlast]
      simp [Token.language]
    · refine ⟨language ts.dropLast * slashWord, ?_⟩
      rw [← List.dropLast_append_getLast? _ hlast]
      simp [Token.language, mul_assoc]
  obtain ⟨l, hl⟩ := hlast
  rw [hl] at hs ⊢
  obtain ⟨x, hx, y, -, rfl⟩ := hs
  exact ⟨x, hx, y ++ t, trivial, (List.append_assoc x y t).symm⟩

lemma IsOpen.isByName (h : IsOpen ts) : (Method.ofTokens ts).isByName = false := by
  by_contra hname
  obtain ⟨c, hc⟩ := Method.getLast?_of_isByName (Bool.not_eq_false _ ▸ hname)
  rcases h with rfl | hlast | hlast
  · cases hc
  · simp [hlast] at hc
  · simp [hlast] at hc

end Language

end PathSieve.Glob
