import Mathlib.Tactic.Common
import PathSieve.Proofs.Glob.Syntax

namespace PathSieve.Glob

def Member.range (m : Member) : Char × Char := (m.low, m.high)

def Class.ranges (k : Class) : List (Char × Char) :=
  (k.first :: k.others).map Member.range ++ if k.hyphen then [('-', '-')] else []

def Letter.piece : Letter → Piece
  | plain c => .plain c
  | escaped c => .escaped c
  | members k => .members k.sign.isSome k.ranges

variable {negated : Bool} {low high : Char} {rs : List (Char × Char)}

lemma scan_high {c : Char} (hc : c ≠ ']') (hl : low ≤ c) (s : Text) :
    scan (.inside ⟨negated, (low, high) :: rs, false⟩) ('-' :: c :: s) =
      scan (.inside ⟨negated, (low, c) :: rs, false⟩) s := by
  have h1 : Members.step ⟨negated, (low, high) :: rs, false⟩ '-' =
      .more ⟨negated, (low, high) :: rs, true⟩ := by simp [Members.step]
  have h2 : Members.step ⟨negated, (low, high) :: rs, true⟩ c =
      .more ⟨negated, (low, c) :: rs, false⟩ := by
    simp [Members.step, hc, Char.not_lt.mpr hl]
  rw [scan, h1]
  dsimp only
  rw [scan, h2]

lemma scan_highs {highs : List Char} (h : ∀ c ∈ highs, c ≠ ']' ∧ low ≤ c) (s : Text) :
    scan (.inside ⟨negated, (low, high) :: rs, false⟩) (highs.flatMap (['-', ·]) ++ s) =
      scan (.inside ⟨negated, (low, highs.getLastD high) :: rs, false⟩) s := by
  induction highs generalizing high with
  | nil => rfl
  | cons c highs ih =>
    obtain ⟨hc, hl⟩ := h c List.mem_cons_self
    have hs : (c :: highs).flatMap (['-', ·]) ++ s =
        '-' :: c :: (highs.flatMap (['-', ·]) ++ s) := rfl
    rw [hs, scan_high hc hl, ih fun d hd => h d (List.mem_cons_of_mem c hd)]
    cases highs <;> rfl

lemma scan_members {ms : List Member} (hlow : ∀ m ∈ ms, m.low ≠ ']' ∧ m.low ≠ '-')
    (hhigh : ∀ m ∈ ms, ∀ c ∈ m.highs, c ≠ ']' ∧ m.low ≤ c) (s : Text) :
    scan (.inside ⟨negated, (low, high) :: rs, false⟩) (ms.flatMap Member.text ++ s) =
      scan (.inside ⟨negated, (ms.map Member.range).reverse ++ (low, high) :: rs, false⟩) s := by
  induction ms generalizing low high rs with
  | nil => rfl
  | cons m ms ih =>
    obtain ⟨hb, hh⟩ := hlow m List.mem_cons_self
    have hs : (m :: ms).flatMap Member.text ++ s =
        m.low :: (m.highs.flatMap (['-', ·]) ++ (ms.flatMap Member.text ++ s)) := by
      simp [Member.text]
    have hstep : Members.step ⟨negated, (low, high) :: rs, false⟩ m.low =
        .more ⟨negated, (m.low, m.low) :: (low, high) :: rs, false⟩ := by
      simp [Members.step, hb, hh]
    rw [hs, scan, hstep]
    dsimp only
    rw [scan_highs (hhigh m List.mem_cons_self),
      ih (fun m' h => hlow m' (List.mem_cons_of_mem m h))
        (fun m' h => hhigh m' (List.mem_cons_of_mem m h))]
    simp [Member.range, Member.high]

lemma scan_close (s : Text) (hyphen : Bool) :
    scan (.inside ⟨negated, (low, high) :: rs, false⟩)
        ((if hyphen then ['-'] else []) ++ ']' :: s) =
      (.members negated (((low, high) :: rs).reverse ++ if hyphen then [('-', '-')] else []) ::
        (scan .outside s).1, (scan .outside s).2) := by
  cases hyphen with
  | false =>
    simp [scan, Members.step]
  | true =>
    have h1 : Members.step ⟨negated, (low, high) :: rs, false⟩ '-' =
        .more ⟨negated, (low, high) :: rs, true⟩ := by simp [Members.step]
    rw [if_pos rfl, List.singleton_append, scan, h1]
    simp [scan, Members.step]

lemma Class.scan_text {k : Class} (h : k.Valid) (s : Text) :
    scan .outside (k.text ++ s) =
      (.members k.sign.isSome k.ranges :: (scan .outside s).1, (scan .outside s).2) := by
  have hfirst : ∀ t : Text, scan (.inside {}) (k.sign.toList ++ (k.first.text ++ t)) =
      scan (.inside ⟨k.sign.isSome, [k.first.range], false⟩) t := by
    intro t
    have hh : scan (.inside ⟨k.sign.isSome, [(k.first.low, k.first.low)], false⟩)
        (k.first.highs.flatMap (['-', ·]) ++ t) =
          scan (.inside ⟨k.sign.isSome, [k.first.range], false⟩) t :=
      scan_highs (h.highs k.first List.mem_cons_self) t
    cases hs : k.sign with
    | none =>
      obtain ⟨h1, h2⟩ := h.first hs
      have hstep : Members.step {} k.first.low =
          .more ⟨false, [(k.first.low, k.first.low)], false⟩ := by simp [Members.step, h1, h2]
      rw [hs] at hh
      simp only [Option.toList_none, List.nil_append, Member.text, List.cons_append]
      rw [scan, hstep]
      exact hh
    | some c =>
      have hsign : Members.step {} c = .more ⟨true, [], false⟩ := by
        rcases h.sign c hs with rfl | rfl <;> rfl
      have hstep : Members.step ⟨true, [], false⟩ k.first.low =
          .more ⟨true, [(k.first.low, k.first.low)], false⟩ := by simp [Members.step]
      rw [hs] at hh
      simp only [Option.toList_some, Member.text, List.cons_append, List.nil_append]
      rw [scan, hsign]
      dsimp only
      rw [scan, hstep]
      exact hh
  have ht : k.text ++ s = '[' :: (k.sign.toList ++ (k.first.text ++
      (k.others.flatMap Member.text ++ (k.hyphens ++ ']' :: s)))) := by
    simp [Class.text]
  have hopen : ∀ t : Text, scan .outside ('[' :: t) = scan (.inside {}) t := by
    intro t
    simp [scan]
  rw [ht, hopen, hfirst, Member.range, scan_members h.lows
    (fun m hm => h.highs m (List.mem_cons_of_mem _ hm))]
  obtain ⟨r, rs, hr⟩ : ∃ r rs, (k.others.map Member.range).reverse ++ [k.first.range] = r :: rs :=
    List.exists_cons_of_ne_nil (by simp)
  have hrev : (r :: rs).reverse = k.first.range :: k.others.map Member.range := by
    rw [← hr]
    simp
  change scan (.inside ⟨_, _ ++ [k.first.range], false⟩) _ = _
  rw [hr, Class.hyphens, scan_close, hrev]
  rfl

lemma Letter.scan_text {l : Letter} (h : l.Valid) (s : Text) :
    scan .outside (l.text ++ s) = (l.piece :: (scan .outside s).1, (scan .outside s).2) := by
  cases h with
  | plain h1 h2 => simp [Letter.text, Letter.piece, scan, h1, h2]
  | escaped => simp [Letter.text, Letter.piece, scan]
  | members hk => exact Class.scan_text hk s

lemma pieces_letters {ls : List Letter} (h : ∀ l ∈ ls, l.Valid) :
    pieces (ls.flatMap Letter.text) = (ls.map Letter.piece, none) := by
  induction ls with
  | nil => rfl
  | cons l ls ih =>
    have ih' := ih fun l' hl => h l' (List.mem_cons_of_mem l hl)
    rw [pieces] at ih' ⊢
    rw [List.flatMap_cons, Letter.scan_text (h l List.mem_cons_self), ih']
    rfl

lemma exists_members {s : Text}
    (h : (scan (.inside ⟨negated, (low, high) :: rs, false⟩) s).2 = none) :
    ∃ (highs : List Char) (others : List Member) (hyphen : Bool) (rest : Text),
      s = highs.flatMap (['-', ·]) ++ (others.flatMap Member.text ++
        ((if hyphen then ['-'] else []) ++ ']' :: rest)) ∧
      (∀ c ∈ highs, c ≠ ']' ∧ low ≤ c) ∧ (∀ m ∈ others, m.low ≠ ']' ∧ m.low ≠ '-') ∧
      ∀ m ∈ others, ∀ c ∈ m.highs, c ≠ ']' ∧ m.low ≤ c := by
  induction hn : s.length using Nat.strongRecOn generalizing s low high rs with
  | ind n ih =>
    subst hn
    cases s with
    | nil => simp [scan] at h
    | cons c s =>
      by_cases hclose : c = ']'
      · subst hclose
        exact ⟨[], [], false, s, rfl, by simp, by simp, by simp⟩
      by_cases hhyphen : c = '-'
      · -- a hyphen is read with the character behind it, which may be the closing bracket
        subst hhyphen
        have hopen : Members.step ⟨negated, (low, high) :: rs, false⟩ '-' =
            .more ⟨negated, (low, high) :: rs, true⟩ := by simp [Members.step]
        rw [scan, hopen] at h
        dsimp only at h
        cases s with
        | nil => simp [scan] at h
        | cons d s =>
          by_cases hd : d = ']'
          · subst hd
            exact ⟨[], [], true, s, rfl, by simp, by simp, by simp⟩
          by_cases hlt : d < low
          · simp [scan, Members.step, hd, hlt] at h
          have hstep : Members.step ⟨negated, (low, high) :: rs, true⟩ d =
              .more ⟨negated, (low, d) :: rs, false⟩ := by simp [Members.step, hd, hlt]
          rw [scan, hstep] at h
          obtain ⟨highs, others, hyphen, rest, rfl, h1, h2, h3⟩ :=
            ih s.length (by simp only [List.length_cons]; omega) h rfl
          exact ⟨d :: highs, others, hyphen, rest, rfl,
            List.forall_mem_cons.mpr ⟨⟨hd, Char.not_lt.mp hlt⟩, h1⟩, h2, h3⟩
      · have hstep : Members.step ⟨negated, (low, high) :: rs, false⟩ c =
            .more ⟨negated, (c, c) :: (low, high) :: rs, false⟩ := by
          simp [Members.step, hclose, hhyphen]
        rw [scan, hstep] at h
        obtain ⟨highs, others, hyphen, rest, rfl, h1, h2, h3⟩ :=
          ih s.length (by simp) h rfl
        refine ⟨[], ⟨c, highs⟩ :: others, hyphen, rest, by simp [Member.text], by simp, ?_, ?_⟩
        · exact List.forall_mem_cons.mpr ⟨⟨hclose, hhyphen⟩, h2⟩
        · exact List.forall_mem_cons.mpr ⟨h1, h3⟩

lemma exists_class {s : Text} (h : (scan (.inside {}) s).2 = none) :
    ∃ (k : Class) (rest : Text), k.Valid ∧ '[' :: s = k.text ++ rest := by
  -- the sign in front, if there is one, and the first member, which may be any character
  obtain ⟨sign, low, t, rfl, hsign, hfirst, ht⟩ : ∃ (sign : Option Char) (low : Char) (t : Text),
      s = sign.toList ++ low :: t ∧ (∀ c ∈ sign, c = '!' ∨ c = '^') ∧
      (sign = none → low ≠ '!' ∧ low ≠ '^') ∧
      (scan (.inside ⟨sign.isSome, [(low, low)], false⟩) t).2 = none := by
    cases s with
    | nil => simp [scan] at h
    | cons c s =>
      by_cases hc : c = '!' ∨ c = '^'
      · have hstep : Members.step {} c = .more ⟨true, [], false⟩ := by
          rcases hc with rfl | rfl <;> rfl
        rw [scan, hstep] at h
        cases s with
        | nil => simp [scan] at h
        | cons d s =>
          have hd : Members.step ⟨true, [], false⟩ d = .more ⟨true, [(d, d)], false⟩ := by
            simp [Members.step]
          dsimp only at h
          rw [scan, hd] at h
          exact ⟨some c, d, s, rfl, by simpa using hc, by simp, h⟩
      · have hstep : Members.step {} c = .more ⟨false, [(c, c)], false⟩ := by
          simp [Members.step, hc]
        rw [scan, hstep] at h
        exact ⟨none, c, s, rfl, by simp, by simpa using hc, h⟩
  obtain ⟨highs, others, hyphen, rest, rfl, h1, h2, h3⟩ := exists_members ht
  refine ⟨⟨sign, ⟨low, highs⟩, others, hyphen⟩, rest, ⟨hsign, hfirst, h2, ?_⟩, ?_⟩
  · exact List.forall_mem_cons.mpr ⟨h1, h3⟩
  · simp [Class.text, Class.hyphens, Member.text]

lemma letters_cons {l : Letter} {rest : Text} (hl : l.Valid)
    (h : ∃ ls : List Letter, (∀ l ∈ ls, l.Valid) ∧ ls.flatMap Letter.text = rest) :
    ∃ ls : List Letter, (∀ l ∈ ls, l.Valid) ∧ ls.flatMap Letter.text = l.text ++ rest := by
  obtain ⟨ls, hls, rfl⟩ := h
  exact ⟨l :: ls, List.forall_mem_cons.mpr ⟨hl, hls⟩, rfl⟩

lemma exists_letters {p : Text} (h : (pieces p).2 = none) :
    ∃ ls : List Letter, (∀ l ∈ ls, l.Valid) ∧ ls.flatMap Letter.text = p := by
  induction hn : p.length using Nat.strongRecOn generalizing p with
  | ind n ih =>
    subst hn
    rw [pieces] at h
    cases p with
    | nil => exact ⟨[], by simp, rfl⟩
    | cons c p =>
      by_cases hescape : c = '\\'
      · subst hescape
        cases p with
        | nil => simp [scan] at h
        | cons d p =>
          have hr : (pieces p).2 = none := by simpa [pieces, scan] using h
          exact letters_cons (l := .escaped d) .escaped
            (ih p.length (by simp only [List.length_cons]; omega) hr rfl)
      by_cases hclass : c = '['
      · subst hclass
        have hs : (scan (.inside {}) p).2 = none := by simpa [scan] using h
        obtain ⟨k, rest, hk, ht⟩ := exists_class hs
        have hr : (pieces rest).2 = none := by
          rw [ht, Class.scan_text hk] at h
          exact h
        have hlen : rest.length < ('[' :: p).length := by
          rw [ht]
          simp [Class.text]
          omega
        rw [ht]
        exact letters_cons (l := .members k) (.members hk) (ih rest.length hlen hr rfl)
      · have hr : (pieces p).2 = none := by simpa [pieces, scan, hescape, hclass] using h
        exact letters_cons (l := .plain c) (.plain hescape hclass)
          (ih p.length (by simp) hr rfl)

lemma scan_letters {ls : List Letter} (h : ∀ l ∈ ls, l.Valid) (s : Text) :
    scan .outside (ls.flatMap Letter.text ++ s) =
      (ls.map Letter.piece ++ (scan .outside s).1, (scan .outside s).2) := by
  induction ls with
  | nil => rfl
  | cons l ls ih =>
    rw [List.forall_mem_cons] at h
    rw [List.flatMap_cons, List.append_assoc, Letter.scan_text h.1, ih h.2]
    rfl

lemma pieces_append {p : Text} (h : (pieces p).2 = none) (s : Text) :
    pieces (p ++ s) = ((pieces p).1 ++ (pieces s).1, (pieces s).2) := by
  obtain ⟨ls, hls, rfl⟩ := exists_letters h
  rw [pieces_letters hls, pieces, scan_letters hls]
  rfl

end PathSieve.Glob
