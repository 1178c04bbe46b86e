import PathSieve.Proofs.Glob.Nodes

/-! Readings of a pattern. Every text is read in exactly one way from left to right, as complete
units and what is left behind the last of them, and it parses unless its reading has a fault. -/

namespace PathSieve.Glob

def IsSign (c : Char) : Prop := c = '!' ∨ c = '^'

structure Class.Formed (k : Class) : Prop where
  sign : ∀ c ∈ k.sign, IsSign c
  first : k.sign = none → ¬ IsSign k.first.low
  lows : ∀ m ∈ k.others, m.low ≠ ']' ∧ m.low ≠ '-'
  highs : ∀ m ∈ k.first :: k.others, ']' ∉ m.highs

def Class.Reversed (k : Class) : Prop := ∃ m ∈ k.first :: k.others, ∃ high ∈ m.highs, high < m.low

inductive Letter.Formed : Letter → Prop
  | plain {c : Char} : c ≠ '\\' → c ≠ '[' → Formed (plain c)
  | escaped {c : Char} : Formed (escaped c)
  | members {k : Class} : k.Formed → Formed (members k)

inductive Ending where
  | complete
  | backslash
  | bracket (sign : Option Char) (body : Text)

namespace Ending

def text : Ending → Text
  | complete => []
  | backslash => ['\\']
  | bracket sign body => '[' :: (sign.toList ++ body)

inductive Formed : Ending → Prop
  | complete : Formed complete
  | backslash : Formed backslash
  | bracket {sign : Option Char} {body : Text} : (∀ c ∈ sign, IsSign c) →
      (sign = none → ∀ c ∈ body.head?, ¬ IsSign c) → ']' ∉ body.tail → Formed (bracket sign body)

end Ending

structure Reading where
  units : List Letter
  ending : Ending

def openBraces : (depth : ℕ) → List Letter → ℕ
  | depth, [] => depth
  | depth, .plain c :: ls =>
    openBraces (if c = '\x7b' then depth + 1 else if c = '\x7d' then depth - 1 else depth) ls
  | depth, _ :: ls => openBraces depth ls

namespace Reading

structure Spells (r : Reading) (p : Text) : Prop where
  units : ∀ l ∈ r.units, l.Formed
  ending : r.ending.Formed
  text : r.units.flatMap Letter.text ++ r.ending.text = p

inductive Faulty (r : Reading) : Prop
  | incomplete : r.ending ≠ .complete → Faulty r
  | reversed {k : Class} : .members k ∈ r.units → k.Reversed → Faulty r
  | unopened {before after : List Letter} : r.units = before ++ .plain '\x7d' :: after →
      openBraces 0 before = 0 → Faulty r
  | unclosed : openBraces 0 r.units ≠ 0 → Faulty r

end Reading

lemma Class.valid_iff {k : Class} : k.Valid ↔ k.Formed ∧ ¬ k.Reversed := by
  constructor
  · intro h
    refine ⟨⟨h.sign, fun hs => not_or.mpr (h.first hs), h.lows, ?_⟩, ?_⟩
    · exact fun m hm hc => (h.highs m hm ']' hc).1 rfl
    · rintro ⟨m, hm, c, hc, hlt⟩
      exact Char.not_lt.mpr (h.highs m hm c hc).2 hlt
  · rintro ⟨h, hr⟩
    refine ⟨h.sign, fun hs => not_or.mp (h.first hs), h.lows, fun m hm c hc => ⟨?_, ?_⟩⟩
    · rintro rfl
      exact h.highs m hm hc
    · exact Char.not_lt.mp fun hlt => hr ⟨m, hm, c, hc, hlt⟩

lemma Letter.valid_iff {l : Letter} :
    l.Valid ↔ l.Formed ∧ ∀ k : Class, l = .members k → ¬ k.Reversed := by
  constructor
  · intro h
    cases h with
    | plain h1 h2 => exact ⟨.plain h1 h2, by simp⟩
    | escaped => exact ⟨.escaped, by simp⟩
    | members h =>
      refine ⟨.members (Class.valid_iff.mp h).1, ?_⟩
      rintro _ ⟨⟩
      exact (Class.valid_iff.mp h).2
  · rintro ⟨h, hr⟩
    cases h with
    | plain h1 h2 => exact .plain h1 h2
    | escaped => exact .escaped
    | members h => exact .members (Class.valid_iff.mpr ⟨h, hr _ rfl⟩)

section Unique

lemma sign_unique {sign sign' : Option Char} {t t' : Text} (hs : ∀ c ∈ sign, IsSign c)
    (hs' : ∀ c ∈ sign', IsSign c) (ht : sign = none → ∀ c ∈ t.head?, ¬ IsSign c)
    (ht' : sign' = none → ∀ c ∈ t'.head?, ¬ IsSign c)
    (h : sign.toList ++ t = sign'.toList ++ t') : sign = sign' ∧ t = t' := by
  cases sign with
  | none =>
    cases sign' with
    | none => exact ⟨rfl, h⟩
    | some c =>
      obtain rfl : t = c :: t' := h
      exact absurd (hs' c rfl) (ht rfl c rfl)
  | some c =>
    cases sign' with
    | none =>
      obtain rfl : c :: t = t' := h
      exact absurd (hs c rfl) (ht' rfl c rfl)
    | some c' =>
      obtain ⟨rfl, rfl⟩ := List.cons.inj h
      exact ⟨rfl, rfl⟩

def Stops (t : Text) : Prop := ∀ c s, t = '-' :: c :: s → c = ']'

lemma highs_unique {highs highs' : List Char} {t t' : Text} (hh : ']' ∉ highs)
    (hh' : ']' ∉ highs') (ht : Stops t) (ht' : Stops t')
    (h : highs.flatMap (['-', ·]) ++ t = highs'.flatMap (['-', ·]) ++ t') :
    highs = highs' ∧ t = t' := by
  induction highs generalizing highs' with
  | nil =>
    cases highs' with
    | nil => exact ⟨rfl, h⟩
    | cons c highs' =>
      obtain rfl := ht c _ h
      exact absurd List.mem_cons_self hh'
  | cons c highs ih =>
    cases highs' with
    | nil =>
      obtain rfl := ht' c _ h.symm
      exact absurd List.mem_cons_self hh
    | cons c' highs' =>
      rw [List.flatMap_cons, List.flatMap_cons, List.append_assoc, List.append_assoc] at h
      obtain ⟨rfl, hrest⟩ := List.cons.inj (List.cons.inj h).2
      obtain ⟨rfl, rfl⟩ := ih (fun hc => hh (List.mem_cons_of_mem c hc))
        (fun hc => hh' (List.mem_cons_of_mem c hc)) hrest
      exact ⟨rfl, rfl⟩

def closing (others : List Member) (hyphen : Bool) (s : Text) : Text :=
  others.flatMap Member.text ++ ((if hyphen then ['-'] else []) ++ ']' :: s)

lemma closing_cons (m : Member) (others : List Member) (hyphen : Bool) (s : Text) :
    closing (m :: others) hyphen s =
      m.low :: (m.highs.flatMap (['-', ·]) ++ closing others hyphen s) := by
  simp [closing, Member.text]

lemma stops_closing {others : List Member} (h : ∀ m ∈ others, m.low ≠ ']' ∧ m.low ≠ '-')
    (hyphen : Bool) (s : Text) : Stops (closing others hyphen s) := by
  intro c t ht
  cases others with
  | nil =>
    cases hyphen with
    | false => cases ht
    | true => exact (List.cons.inj (List.cons.inj ht).2).1.symm
  | cons m others =>
    rw [closing_cons] at ht
    exact absurd (List.cons.inj ht).1 (h m List.mem_cons_self).2

lemma closing_unique {others others' : List Member} {hyphen hyphen' : Bool} {s s' : Text}
    (hl : ∀ m ∈ others, m.low ≠ ']' ∧ m.low ≠ '-') (hh : ∀ m ∈ others, ']' ∉ m.highs)
    (hl' : ∀ m ∈ others', m.low ≠ ']' ∧ m.low ≠ '-') (hh' : ∀ m ∈ others', ']' ∉ m.highs)
    (h : closing others hyphen s = closing others' hyphen' s') :
    others = others' ∧ hyphen = hyphen' ∧ s = s' := by
  -- where no member is left, a hyphen or the bracket comes first, and no member begins with these
  have hend : ∀ (m : Member) (ms : List Member) (b b' : Bool) (t t' : Text),
      m.low ≠ ']' ∧ m.low ≠ '-' → closing [] b t ≠ closing (m :: ms) b' t' := by
    intro m ms b b' t t' hm he
    rw [closing_cons] at he
    cases b with
    | false => exact hm.1 (List.cons.inj he).1.symm
    | true => exact hm.2 (List.cons.inj he).1.symm
  induction others generalizing others' with
  | nil =>
    cases others' with
    | nil => cases hyphen <;> cases hyphen' <;> simp_all [closing]
    | cons m' others' => exact absurd h (hend m' _ _ _ _ _ (hl' m' List.mem_cons_self))
  | cons m others ih =>
    cases others' with
    | nil => exact absurd h.symm (hend m _ _ _ _ _ (hl m List.mem_cons_self))
    | cons m' others' =>
      rw [List.forall_mem_cons] at hl hh hl' hh'
      rw [closing_cons, closing_cons] at h
      obtain ⟨hlow, h⟩ := List.cons.inj h
      obtain ⟨hhighs, h⟩ :=
        highs_unique hh.1 hh'.1 (stops_closing hl.2 _ _) (stops_closing hl'.2 _ _) h
      obtain ⟨rfl, rfl, rfl⟩ := ih hl.2 hh.2 hl'.2 hh'.2 h
      cases m
      cases m'
      cases hlow
      cases hhighs
      exact ⟨rfl, rfl, rfl⟩

lemma Class.text_append (k : Class) (s : Text) :
    k.text ++ s = '[' :: (k.sign.toList ++
      k.first.low :: (k.first.highs.flatMap (['-', ·]) ++ closing k.others k.hyphen s)) := by
  simp [Class.text, Member.text, closing, Class.hyphens]

lemma Class.text_unique {k k' : Class} (hk : k.Formed) (hk' : k'.Formed) {s s' : Text}
    (h : k.text ++ s = k'.text ++ s') : k = k' ∧ s = s' := by
  rw [Class.text_append, Class.text_append] at h
  obtain ⟨hsign, h⟩ := sign_unique hk.sign hk'.sign (fun hn c hc => by cases hc; exact hk.first hn)
    (fun hn c hc => by cases hc; exact hk'.first hn) (List.cons.inj h).2
  obtain ⟨hlow, h⟩ := List.cons.inj h
  have hh := List.forall_mem_cons.mp hk.highs
  have hh' := List.forall_mem_cons.mp hk'.highs
  obtain ⟨hhighs, h⟩ :=
    highs_unique hh.1 hh'.1 (stops_closing hk.lows _ _) (stops_closing hk'.lows _ _) h
  obtain ⟨hothers, hhyphen, rfl⟩ := closing_unique hk.lows hh.2 hk'.lows hh'.2 h
  obtain ⟨sign, ⟨low, highs⟩, others, hyphen⟩ := k
  obtain ⟨sign', ⟨low', highs'⟩, others', hyphen'⟩ := k'
  cases hsign
  cases hlow
  cases hhighs
  cases hothers
  cases hhyphen
  exact ⟨rfl, rfl⟩

lemma Class.text_ne_bracket {k : Class} (hk : k.Formed) {sign : Option Char} {body s : Text}
    (h : (Ending.bracket sign body).Formed) :
    (Ending.bracket sign body).text ≠ k.text ++ s := by
  intro he
  cases h with
  | bracket hs hn hb =>
    rw [Class.text_append] at he
    obtain ⟨-, rfl⟩ := sign_unique hs hk.sign hn (fun hn c hc => by cases hc; exact hk.first hn)
      (List.cons.inj he).2
    exact hb (by simp [closing])

lemma Letter.text_unique {l l' : Letter} (hl : l.Formed) (hl' : l'.Formed) {s s' : Text}
    (h : l.text ++ s = l'.text ++ s') : l = l' ∧ s = s' := by
  -- the first character tells a plain one, a backslash and a bracket apart
  have hhead : (l.text ++ s).head? = (l'.text ++ s').head? := by rw [h]
  cases hl with
  | plain h1 h2 =>
    cases hl' with
    | plain => simpa [Letter.text] using h
    | escaped => exact absurd (Option.some.inj hhead) h1
    | members => exact absurd (Option.some.inj hhead) h2
  | escaped =>
    cases hl' with
    | plain h1 h2 => exact absurd (Option.some.inj hhead).symm h1
    | escaped => simpa [Letter.text] using h
    | members => exact absurd (Option.some.inj hhead) (by decide)
  | members hk =>
    cases hl' with
    | plain h1 h2 => exact absurd (Option.some.inj hhead).symm h2
    | escaped => exact absurd (Option.some.inj hhead) (by decide)
    | members hk' =>
      obtain ⟨rfl, rfl⟩ := Class.text_unique hk hk' h
      exact ⟨rfl, rfl⟩

lemma Letter.text_ne_ending {l : Letter} (hl : l.Formed) {e : Ending} (he : e.Formed) (s : Text) :
    e.text ≠ l.text ++ s := by
  cases hl with
  | plain h1 h2 => cases he <;> simp [Ending.text, Letter.text, h1.symm, h2.symm]
  | escaped => cases he <;> simp [Ending.text, Letter.text]
  | members hk =>
    cases he with
    | complete => simp [Ending.text, Letter.text, Class.text]
    | backslash => simp [Ending.text, Letter.text, Class.text]
    | bracket hs hn hb => exact Class.text_ne_bracket hk (.bracket hs hn hb)

lemma Ending.text_unique {e e' : Ending} (he : e.Formed) (he' : e'.Formed)
    (h : e.text = e'.text) : e = e' := by
  cases he with
  | complete => cases he' <;> simp_all [Ending.text]
  | backslash => cases he' <;> simp_all [Ending.text]
  | bracket hs hn hb =>
    cases he' with
    | complete => simp [Ending.text] at h
    | backslash => simp [Ending.text] at h
    | bracket hs' hn' hb' =>
      obtain ⟨rfl, rfl⟩ := sign_unique hs hs' hn hn' (List.cons.inj h).2
      rfl

lemma Reading.Spells.unique {r r' : Reading} {p : Text} (h : r.Spells p) (h' : r'.Spells p) :
    r = r' := by
  obtain ⟨ls, e⟩ := r
  obtain ⟨ls', e'⟩ := r'
  obtain ⟨hls, he, rfl⟩ := h
  obtain ⟨hls', he', ht⟩ := h'
  dsimp only at hls he hls' he' ht
  induction ls generalizing ls' with
  | nil =>
    cases ls' with
    | nil =>
      obtain rfl := Ending.text_unique he' he ht
      rfl
    | cons l' ls' =>
      rw [List.flatMap_cons, List.append_assoc] at ht
      exact absurd ht.symm (Letter.text_ne_ending (hls' l' List.mem_cons_self) he _)
  | cons l ls ih =>
    rw [List.forall_mem_cons] at hls
    rw [List.flatMap_cons, List.append_assoc] at ht
    cases ls' with
    | nil => exact absurd ht (Letter.text_ne_ending hls.1 he' _)
    | cons l' ls' =>
      rw [List.forall_mem_cons] at hls'
      rw [List.flatMap_cons, List.append_assoc] at ht
      obtain ⟨rfl, hrest⟩ := Letter.text_unique hls'.1 hls.1 ht
      cases ih ls' hls.2 hls'.2 hrest
      rfl

end Unique

section Exists

-- Every text without a closing bracket is more upper ends of a member, more members, and a
-- hyphen.
lemma exists_closing : ∀ t : Text, ']' ∉ t →
    ∃ (highs : List Char) (others : List Member) (hyphen : Bool),
      t = highs.flatMap (['-', ·]) ++ (others.flatMap Member.text ++ if hyphen then ['-'] else []) ∧
      ']' ∉ highs ∧ (∀ m ∈ others, m.low ≠ ']' ∧ m.low ≠ '-') ∧ ∀ m ∈ others, ']' ∉ m.highs
  | [], _ => ⟨[], [], false, rfl, by simp, by simp, by simp⟩
  | c :: t, h => by
    by_cases hc : c = '-'
    · subst hc
      cases t with
      | nil => exact ⟨[], [], true, rfl, by simp, by simp, by simp⟩
      | cons d t =>
        have hd : ']' ≠ d ∧ ']' ∉ t := by simpa using h
        obtain ⟨highs, others, hyphen, rfl, h1, h2, h3⟩ := exists_closing t hd.2
        refine ⟨d :: highs, others, hyphen, rfl, ?_, h2, h3⟩
        rw [List.mem_cons, not_or]
        exact ⟨hd.1, h1⟩
    have hb : ']' ≠ c ∧ ']' ∉ t := by simpa using h
    obtain ⟨highs, others, hyphen, rfl, h1, h2, h3⟩ := exists_closing t hb.2
    refine ⟨[], ⟨c, highs⟩ :: others, hyphen, by simp [Member.text], by simp, ?_, ?_⟩
    · exact List.forall_mem_cons.mpr ⟨⟨hb.1.symm, hc⟩, h2⟩
    · exact List.forall_mem_cons.mpr ⟨h1, h3⟩

lemma exists_class_or_bracket (s : Text) :
    (∃ (k : Class) (rest : Text), k.Formed ∧ '[' :: s = k.text ++ rest) ∨
      ∃ e : Ending, e.Formed ∧ e.text = '[' :: s := by
  obtain ⟨sign, body, rfl, hsign, hbody⟩ : ∃ (sign : Option Char) (body : Text),
      s = sign.toList ++ body ∧ (∀ c ∈ sign, IsSign c) ∧
        (sign = none → ∀ c ∈ body.head?, ¬ IsSign c) := by
    by_cases h : ∃ c t, s = c :: t ∧ IsSign c
    · obtain ⟨c, t, rfl, hc⟩ := h
      exact ⟨some c, t, rfl, by simpa using hc, by simp⟩
    · refine ⟨none, s, rfl, by simp, fun _ c hc hs => h ⟨c, s.tail, ?_, hs⟩⟩
      exact (List.cons_head?_tail hc).symm
  by_cases hclose : ']' ∈ body.tail
  · obtain ⟨low, t, rfl⟩ : ∃ low t, body = low :: t := by
      cases body with
      | nil => simp at hclose
      | cons low t => exact ⟨low, t, rfl⟩
    obtain ⟨t, rest, ht, hnot⟩ := List.eq_append_cons_of_mem hclose
    obtain rfl : _ = t ++ ']' :: rest := ht
    obtain ⟨highs, others, hyphen, rfl, h1, h2, h3⟩ := exists_closing t hnot
    refine Or.inl ⟨⟨sign, ⟨low, highs⟩, others, hyphen⟩, rest, ⟨hsign, ?_, h2, ?_⟩, ?_⟩
    · exact fun hn => hbody hn low rfl
    · exact List.forall_mem_cons.mpr ⟨h1, h3⟩
    · rw [Class.text_append]
      simp [closing]
  · exact Or.inr ⟨.bracket sign body, .bracket hsign hbody hclose, rfl⟩

lemma Reading.Spells.cons {r : Reading} {p : Text} (h : r.Spells p) {l : Letter}
    (hl : l.Formed) : (⟨l :: r.units, r.ending⟩ : Reading).Spells (l.text ++ p) where
  units := List.forall_mem_cons.mpr ⟨hl, h.units⟩
  ending := h.ending
  text := by rw [List.flatMap_cons, List.append_assoc, h.text]

lemma exists_reading (p : Text) : ∃ r : Reading, r.Spells p := by
  -- a unit takes one character, two, or all of a class, so the induction is on the length
  induction hn : p.length using Nat.strongRecOn generalizing p with
  | ind n ih =>
    subst hn
    have htail : ∀ {l : Letter} {rest : Text}, l.Formed → p = l.text ++ rest →
        rest.length < p.length → ∃ r : Reading, r.Spells p := by
      rintro l rest hl rfl hlen
      obtain ⟨r, hr⟩ := ih rest.length hlen rest rfl
      exact ⟨_, hr.cons hl⟩
    have hlast : ∀ {e : Ending}, e.Formed → e.text = p → ∃ r : Reading, r.Spells p :=
      fun he ht => ⟨⟨[], _⟩, by simp, he, ht⟩
    cases p with
    | nil => exact hlast .complete rfl
    | cons c p =>
      by_cases hescape : c = '\\'
      · subst hescape
        cases p with
        | nil => exact hlast .backslash rfl
        | cons d p =>
          refine htail (l := .escaped d) .escaped rfl ?_
          simp only [List.length_cons]
          omega
      by_cases hclass : c = '['
      · subst hclass
        obtain ⟨k, rest, hk, ht⟩ | ⟨e, he, ht⟩ := exists_class_or_bracket p
        · refine htail (l := .members k) (.members hk) ht ?_
          rw [ht, Class.text_append]
          simp [closing]
          omega
        · exact hlast he ht
      · exact htail (l := .plain c) (.plain hescape hclass) rfl (by simp)

end Exists

section Faults

def Opened (depth : ℕ) (ls : List Letter) : Prop :=
  ∀ before after, ls = before ++ .plain '\x7d' :: after → openBraces depth before ≠ 0

lemma opened_cons {l : Letter} {ls : List Letter} {depth : ℕ} :
    Opened depth (l :: ls) ↔ (l = .plain '\x7d' → depth ≠ 0) ∧
      ∀ before after, ls = before ++ .plain '\x7d' :: after →
        openBraces depth (l :: before) ≠ 0 := by
  constructor
  · intro h
    refine ⟨?_, fun before after hls => h (l :: before) after (by rw [hls]; rfl)⟩
    rintro rfl
    exact h [] ls rfl
  · rintro ⟨hl, h⟩ before after he
    cases before with
    | nil => exact hl (List.cons.inj he).1
    | cons b before =>
      obtain ⟨rfl, hls⟩ := List.cons.inj he
      exact h before after hls

lemma balanced_iff {ls : List Letter} (depth : ℕ) :
    balanced depth (ls.map Letter.piece) = true ↔
      Opened depth ls ∧ openBraces depth ls = 0 := by
  induction ls generalizing depth with
  | nil => simp [balanced, openBraces, Opened]
  | cons l ls ih =>
    rw [opened_cons]
    cases l with
    | plain c =>
      by_cases hopen : c = '\x7b'
      · subst hopen
        have hb := ih (depth + 1)
        simpa [balanced, Letter.piece, openBraces, Opened] using hb
      by_cases hclose : c = '\x7d'
      · subst hclose
        have hb := ih (depth - 1)
        simp [balanced, Letter.piece, openBraces, hb, Opened, and_assoc]
      · have hb := ih depth
        simpa [balanced, Letter.piece, openBraces, hopen, hclose, Opened] using hb
    | escaped c => simpa [balanced, Letter.piece, openBraces, Opened] using ih depth
    | members k => simpa [balanced, Letter.piece, openBraces, Opened] using ih depth

lemma exists_build {prev : Option Char} {groups : List Group} {ts : List Token} {ps : List Piece}
    (h : balanced groups.length ps = true) : ∃ out, build none prev groups ts ps = .ok out := by
  fun_induction build none prev groups ts ps <;> simp_all [balanced]

lemma Reading.not_faulty_iff {r : Reading} :
    ¬ r.Faulty ↔ r.ending = .complete ∧ (∀ k, .members k ∈ r.units → ¬ k.Reversed) ∧
      balanced 0 (r.units.map Letter.piece) = true := by
  rw [balanced_iff]
  constructor
  · intro h
    refine ⟨?_, fun k hk hr => h (.reversed hk hr), fun before after hu hd => ?_, ?_⟩
    · by_contra he
      exact h (.incomplete he)
    · exact h (.unopened hu hd)
    · by_contra hd
      exact h (.unclosed hd)
  · rintro ⟨he, hk, hopened, hd⟩ h
    cases h with
    | incomplete h => exact h he
    | reversed hm hr => exact hk _ hm hr
    | unopened hu h => exact hopened _ _ hu h
    | unclosed h => exact h hd

lemma Reading.Spells.parse_ok_iff {r : Reading} {p : Text} (h : r.Spells p) :
    (∃ ts, parse p = .ok ts) ↔ ¬ r.Faulty := by
  rw [not_faulty_iff]
  constructor
  · rintro ⟨ts, hp⟩
    rw [parse_eq] at hp
    obtain ⟨hf, hb⟩ := balanced_of_build hp
    obtain ⟨ls, hv, ht⟩ := exists_letters hf
    have hls : Reading.Spells ⟨ls, .complete⟩ p :=
      ⟨fun l hl => (Letter.valid_iff.mp (hv l hl)).1, .complete, by simpa [Ending.text] using ht⟩
    cases h.unique hls
    refine ⟨rfl, fun k hk => (Letter.valid_iff.mp (hv _ hk)).2 k rfl, ?_⟩
    rwa [← ht, pieces_letters hv] at hb
  · rintro ⟨he, hk, hb⟩
    have hv : ∀ l ∈ r.units, l.Valid := fun l hl =>
      Letter.valid_iff.mpr ⟨h.units l hl, fun k hlk => hk k (hlk ▸ hl)⟩
    have ht : r.units.flatMap Letter.text = p := by simpa [he, Ending.text] using h.text
    rw [parse_eq, ← ht, pieces_letters hv]
    exact exists_build hb

end Faults

end PathSieve.Glob
