import PathSieve.Proofs.Glob.Literal
import PathSieve.Proofs.Glob.Move
import PathSieve.Proofs.Glob.Reading
import PathSieve.Proofs.Text.Split

/-! Braces around literals. A pattern with such braces has the tokens of the patterns that have one
of the branches in place of the braces, with a choice in place of the branch. -/

namespace PathSieve.Glob

def reserved : List Char := special ++ [']', ',', '/']

structure IsBranch (b : Text) : Prop where
  ne_nil : b ≠ []
  plain : ∀ c ∈ b, c ∉ reserved

instance : DecidablePred IsBranch := fun b =>
  have : Decidable (∀ c ∈ b, c ∉ reserved) := List.decidableBAll _ b
  decidable_of_iff (b ≠ [] ∧ ∀ c ∈ b, c ∉ reserved)
    ⟨fun h => ⟨h.1, h.2⟩, fun h => ⟨h.ne_nil, h.plain⟩⟩

def braces (bs : List Text) : Text := '\x7b' :: Text.join [','] bs ++ ['\x7d']

lemma IsBranch.isLiteral {b : Text} (h : IsBranch b) : IsLiteral b := fun c hc hs =>
  h.plain c hc (List.mem_append_left _ hs)

lemma IsBranch.comma_notMem {b : Text} (h : IsBranch b) : ',' ∉ b := fun hc =>
  h.plain _ hc (by decide)

lemma IsBranch.slash_notMem {b : Text} (h : IsBranch b) : '/' ∉ b := fun hc =>
  h.plain _ hc (by decide)

structure IsPart (w : Text) (ts : List Token) : Prop where
  plain : ∀ c ∈ w, c ≠ '\\' ∧ c ≠ '['
  head : ∃ c v, w = c :: v ∧ c ≠ '*' ∧ c ≠ '/'
  token : ∃ t ∈ ts, t ≠ .dirsBefore
  build : ∃ last ≠ '/', ∀ prev us rest, build none prev [] us (w.map .plain ++ rest) =
    build none (some last) [] (ts.reverse ++ us) rest

lemma IsBranch.isPart {b : Text} (h : IsBranch b) : IsPart b (literals b) := by
  obtain ⟨c, v, rfl⟩ := List.exists_cons_of_ne_nil h.ne_nil
  have hc : c ≠ '*' ∧ c ≠ '/' := by
    constructor <;> rintro rfl <;> exact h.plain _ List.mem_cons_self (by decide)
  refine ⟨h.isLiteral.isPlain, ⟨c, v, rfl, hc⟩,
    ⟨.literal c, List.mem_cons_self, by simp⟩, (c :: v).getLast (by simp), ?_,
    fun prev us rest => ?_⟩
  · exact fun hlast => h.slash_notMem (hlast ▸ List.getLast_mem _)
  · rw [build_literal h.isLiteral (by simp), List.getLast?_eq_getLast_of_ne_nil, Option.some_or]

lemma IsPart.ne_nil {w : Text} {ts : List Token} (h : IsPart w ts) : ts ≠ [] := by
  obtain ⟨t, ht, -⟩ := h.token
  exact List.ne_nil_of_mem ht

lemma IsPart.ne_dirsBefore {w : Text} {ts : List Token} (h : IsPart w ts) (us vs : List Token) :
    us ++ (ts ++ vs) ≠ [.dirsBefore] := by
  intro he
  obtain ⟨t, ht, hne⟩ := h.token
  have hmem : t ∈ us ++ (ts ++ vs) := by simp [ht]
  rw [he, List.mem_singleton] at hmem
  exact hne hmem

variable {prev : Option Char} {groups : List Group}

lemma build_listed {outer : List Token} {done : List (List Token)} {b : Text} {bs : List Text}
    (h : ∀ a ∈ b :: bs, IsBranch a) (rest : List Piece) :
    build none prev (⟨outer, done⟩ :: groups) []
        ((Text.join [','] (b :: bs)).map .plain ++ .plain '\x7d' :: rest) =
      build none (some '\x7d') groups
        (.choice (done.reverse ++ (b :: bs).map literals) :: outer) rest := by
  induction bs generalizing prev done b with
  | nil =>
    rw [List.forall_mem_singleton] at h
    have hjoin : Text.join [','] [b] = b := rfl
    rw [hjoin, build_literal h.isLiteral fun _ => h.comma_notMem, build_close]
    simp
  | cons c bs ih =>
    rw [List.forall_mem_cons] at h
    have hjoin : Text.join [','] (b :: c :: bs) = b ++ ',' :: Text.join [','] (c :: bs) := by
      simp [Text.join]
    rw [hjoin, List.map_append, List.append_assoc,
      build_literal h.1.isLiteral fun _ => h.1.comma_notMem, List.map_cons, List.cons_append,
      build_comma, ih h.2]
    simp

lemma isPart_braces {bs : List Text} (hbs : bs ≠ []) (h : ∀ b ∈ bs, IsBranch b) :
    IsPart (braces bs) [.choice (bs.map literals)] where
  plain := by
    have hjoin : ∀ c ∈ Text.join [','] bs, c ≠ '\\' ∧ c ≠ '[' := by
      intro c hc
      by_cases hcomma : c = ','
      · subst hcomma
        decide
      · obtain ⟨b, hb, hcb⟩ := (Text.mem_join (by simpa using hcomma)).mp hc
        exact (h b hb).isLiteral.isPlain c hcb
    rw [braces, List.forall_mem_append, List.forall_mem_cons, List.forall_mem_singleton]
    exact ⟨⟨by decide, hjoin⟩, by decide⟩
  head := ⟨_, _, rfl, by decide, by decide⟩
  token := ⟨_, List.mem_singleton_self _, by simp⟩
  build := by
    refine ⟨'\x7d', by decide, fun prev us rest => ?_⟩
    obtain ⟨b, bs, rfl⟩ := List.exists_cons_of_ne_nil hbs
    rw [braces, List.map_append, List.append_assoc, List.map_cons, List.cons_append, build_open]
    exact build_listed h rest

lemma exists_build_start {p : Text} (h : ∃ ts, parse p = .ok ts) :
    (pieces p).2 = none ∧ ∃ (last : Option Char) (us : List Token), ∀ c rest, c ≠ '*' → c ≠ '/' →
      build none none [] [] ((pieces p).1 ++ .plain c :: rest) =
        build none last [] us (.plain c :: rest) := by
  obtain ⟨ps, h⟩ := h
  rw [parse_eq] at h
  obtain ⟨hf, -⟩ := balanced_of_build h
  rw [hf] at h
  exact ⟨hf, exists_build_before h⟩

lemma exists_build_end {q : Text} (h : ∃ ts, parse q = .ok ts) :
    (pieces q).2 = none ∧ ∃ vs : List Token, ∀ prev ts, prev ≠ some '/' → ts ≠ [] →
      build none prev [] ts (pieces q).1 = .ok (ts.reverse ++ vs) := by
  obtain ⟨qs, h⟩ := h
  rw [parse_eq] at h
  obtain ⟨hf, hb⟩ := balanced_of_build h
  obtain ⟨r, hr⟩ := exists_build_behind (pieces q).1
  -- balanced pieces are built, so the one result that is found behind all tokens is no error
  obtain ⟨out, hout⟩ : ∃ out, build none none [] [.anyByte] (pieces q).1 = .ok out :=
    exists_build hb
  rw [hr none [.anyByte] (by simp) (by simp)] at hout
  obtain ⟨vs, rfl, -⟩ := Except.map_ok.mp hout
  exact ⟨hf, vs, hr⟩

lemma exists_parse_around {p q : Text} (hp : ∃ ts, parse p = .ok ts) (hq : ∃ ts, parse q = .ok ts) :
    ∃ us vs : List Token, ∀ w ts, IsPart w ts →
      parse (p ++ (w ++ q)) = .ok (us ++ (ts ++ vs)) := by
  obtain ⟨hpf, first, us, hstart⟩ := exists_build_start hp
  obtain ⟨hqf, vs, hend⟩ := exists_build_end hq
  refine ⟨us.reverse, vs, fun w ts h => ?_⟩
  have hw : pieces w = (w.map .plain, none) := pieces_plain h.plain
  obtain ⟨last, hlast, hbuild⟩ := h.build
  have hfront : build none none [] [] ((pieces p).1 ++ (w.map .plain ++ (pieces q).1)) =
      build none first [] us (w.map .plain ++ (pieces q).1) := by
    obtain ⟨c, v, rfl, hstar, hslash⟩ := h.head
    exact hstart c _ hstar hslash
  have hts : ts.reverse ++ us ≠ [] := by simp [h.ne_nil]
  rw [parse_eq, pieces_append hpf, pieces_append (by rw [hw]), hw, hqf, hfront, hbuild,
    hend (some last) _ (by simpa using hlast) hts]
  simp

section Language

variable {bs : List Text}

lemma isVoid_literals {b : Text} (h : b ≠ []) : isVoid (literals b) = false := by
  obtain ⟨c, v, rfl⟩ := List.exists_cons_of_ne_nil h
  rfl

lemma mem_anyLanguage_literals (h : ∀ b ∈ bs, b ≠ []) (s : Bytes) :
    s ∈ anyLanguage (bs.map literals) ↔ ∃ b ∈ bs, s ∈ language (literals b) := by
  induction bs with
  | nil => simp [anyLanguage]
  | cons b bs ih =>
    rw [List.forall_mem_cons] at h
    rw [List.map_cons, anyLanguage, isVoid_literals h.1, if_neg Bool.false_ne_true,
      Language.mem_add, ih h.2]
    simp

lemma mem_language_choice (hbs : bs ≠ []) (h : ∀ b ∈ bs, b ≠ []) (s : Bytes) :
    s ∈ (Token.choice (bs.map literals)).language ↔ ∃ b ∈ bs, s ∈ language (literals b) := by
  have hvoid : areAllVoid (bs.map literals) = false := by
    obtain ⟨b, bs, rfl⟩ := List.exists_cons_of_ne_nil hbs
    rw [List.map_cons, areAllVoid, isVoid_literals (h b List.mem_cons_self), Bool.false_and]
  rw [Token.language, hvoid, if_neg Bool.false_ne_true, mem_anyLanguage_literals h]

lemma mem_language_around (hbs : bs ≠ []) (h : ∀ b ∈ bs, b ≠ []) (us vs : List Token)
    (s : Bytes) :
    s ∈ language (us ++ (.choice (bs.map literals) :: vs)) ↔
      ∃ b ∈ bs, s ∈ language (us ++ (literals b ++ vs)) := by
  simp only [language_append, language_cons, Language.mem_mul, mem_language_choice hbs h]
  constructor
  · rintro ⟨x, hx, _, ⟨y, ⟨b, hb, hy⟩, z, hz, rfl⟩, rfl⟩
    exact ⟨b, hb, x, hx, _, ⟨y, hy, z, hz, rfl⟩, rfl⟩
  · rintro ⟨b, hb, x, hx, _, ⟨y, hy, z, hz, rfl⟩, rfl⟩
    exact ⟨x, hx, _, ⟨y, ⟨b, hb, hy⟩, z, hz, rfl⟩, rfl⟩

end Language

end PathSieve.Glob
