import PathSieve.Glob.Method
import PathSieve.Proofs.Except
import PathSieve.Proofs.Glob.Nodes
import PathSieve.Proofs.Text.Utf8.Decode

namespace PathSieve.Glob

open Positions

def special : List Char := ['*', '?', '[', '\x7b', '\x7d', '\\']

def IsLiteral (w : Text) : Prop := ∀ c ∈ w, c ∉ special

instance : DecidablePred IsLiteral := fun w => List.decidableBAll (· ∉ special) w

def literals (w : Text) : List Token := w.map .literal

lemma literals_cons (c : Char) (w : Text) : literals (c :: w) = .literal c :: literals w := rfl

lemma choice_notMem_literals (w : Text) (bs : List (List Token)) : .choice bs ∉ literals w := by
  simp [literals]

lemma IsLiteral.isPlain {w : Text} (h : IsLiteral w) : ∀ c ∈ w, c ≠ '\\' ∧ c ≠ '[' := by
  intro c hc
  constructor <;> rintro rfl <;> exact h _ hc (by decide)

lemma text_plain (w : Text) : (w.map Letter.plain).flatMap Letter.text = w := by
  rw [List.flatMap_map]
  exact List.flatMap_singleton' w

lemma pieces_plain {w : Text} (h : ∀ c ∈ w, c ≠ '\\' ∧ c ≠ '[') :
    pieces w = (w.map .plain, none) := by
  have hv : ∀ l ∈ w.map Letter.plain, l.Valid := by
    rw [List.forall_mem_map]
    exact fun c hc => .plain (h c hc).1 (h c hc).2
  have hp := pieces_letters hv
  rw [text_plain, List.map_map] at hp
  exact hp

inductive Letter.StandsFor : Letter → Char → Prop
  | escaped (c : Char) : StandsFor (escaped c) c
  | plain {c : Char} : c ∉ special → StandsFor (plain c) c

namespace Letter.StandsFor

variable {l : Letter} {c : Char}

lemma valid (h : l.StandsFor c) : l.Valid := by
  cases h with
  | escaped => exact .escaped
  | plain h =>
    refine .plain ?_ ?_ <;> rintro rfl <;> exact h (by decide)

lemma token_eq (h : l.StandsFor c) : l.token = .literal c := by
  cases h with
  | escaped => rfl
  | plain h =>
    have hne : ∀ d ∈ special, c ≠ d := fun d hd hcd => h (hcd ▸ hd)
    rw [Letter.token, if_neg (hne '?' (by decide)), if_neg (hne '*' (by decide))]

lemma last_eq (h : l.StandsFor c) : l.last = c := by
  cases h <;> rfl

lemma ne_plain (h : l.StandsFor c) {d : Char} (hd : d ∈ special) : l ≠ .plain d := by
  rintro rfl
  cases h with
  | plain h => exact h hd

end Letter.StandsFor

lemma build_standing {fault : Option Fault} {groups : List Group} {ls : List Letter} {w : Text}
    (h : List.Forall₂ Letter.StandsFor ls w) (hcomma : groups ≠ [] → .plain ',' ∉ ls)
    (prev : Option Char) (ts : List Token) (rest : List Piece) :
    build fault prev groups ts (ls.map Letter.piece ++ rest) =
      build fault (w.getLast?.or prev) groups ((literals w).reverse ++ ts) rest := by
  induction h generalizing prev ts with
  | nil => rfl
  | @cons l c ls w hl _ ih =>
    have hstep : build fault prev groups ts (l.piece :: (ls.map Letter.piece ++ rest)) =
        build fault (some c) groups (.literal c :: ts) (ls.map Letter.piece ++ rest) := by
      rw [← hl.token_eq, ← hl.last_eq]
      refine build_letter (hl.ne_plain (by decide)) (hl.ne_plain (by decide)) ?_ ?_
      · rintro hg rfl
        exact hcomma hg List.mem_cons_self
      · exact fun hstar => hl.ne_plain (by decide) hstar.1
    have hlast : (c :: w).getLast?.or prev = w.getLast?.or (some c) := by
      cases w <;> simp [List.getLast?_cons]
    rw [List.map_cons, List.cons_append, hstep,
      ih fun hg hm => hcomma hg (List.mem_cons_of_mem l hm), hlast, literals_cons,
      List.reverse_cons, List.append_assoc]
    rfl

lemma IsLiteral.standing {w : Text} (h : IsLiteral w) :
    List.Forall₂ Letter.StandsFor (w.map .plain) w := by
  rw [List.forall₂_map_left_iff, List.forall₂_same]
  exact fun c hc => .plain (h c hc)

lemma build_literal {fault : Option Fault} {groups : List Group} {w : Text} (h : IsLiteral w)
    (hcomma : groups ≠ [] → ',' ∉ w) (prev : Option Char) (ts : List Token) (rest : List Piece) :
    build fault prev groups ts (w.map .plain ++ rest) =
      build fault (w.getLast?.or prev) groups ((literals w).reverse ++ ts) rest := by
  have hcomma' : groups ≠ [] → .plain ',' ∉ w.map Letter.plain := fun hg hm =>
    hcomma hg (by simpa using hm)
  have hb : build fault prev groups ts ((w.map Letter.plain).map Letter.piece ++ rest) = _ :=
    build_standing h.standing hcomma' prev ts rest
  rwa [List.map_map] at hb

lemma parse_standing {ls : List Letter} {w : Text} (h : List.Forall₂ Letter.StandsFor ls w) :
    parse (ls.flatMap Letter.text) = .ok (literals w) := by
  have hvalid : ∀ l ∈ ls, l.Valid := by
    intro l hl
    obtain ⟨c, -, hc⟩ := Except.exists_right h hl
    exact hc.valid
  have hb : build none none [] [] (ls.map Letter.piece ++ []) = _ :=
    build_standing h (by simp) none [] []
  rw [List.append_nil] at hb
  rw [parse_eq, pieces_letters hvalid, hb, build_nil]
  simp

def Letter.written (escapes : Char → Bool) (c : Char) : Letter :=
  if escapes c then .escaped c else .plain c

def escape (escapes : Char → Bool) (w : Text) : Text :=
  w.flatMap fun c => if escapes c then ['\\', c] else [c]

lemma escape_eq (escapes : Char → Bool) (w : Text) :
    escape escapes w = (w.map (Letter.written escapes)).flatMap Letter.text := by
  rw [List.flatMap_map, escape]
  refine List.flatMap_congr fun c _ => ?_
  rw [Letter.written]
  split_ifs <;> rfl

lemma parse_escape {escapes : Char → Bool} (h : ∀ c ∈ special, escapes c = true) (w : Text) :
    parse (escape escapes w) = .ok (literals w) := by
  rw [escape_eq]
  refine parse_standing ?_
  rw [List.forall₂_map_left_iff, List.forall₂_same]
  intro c _
  rw [Letter.written]
  split_ifs with hc
  · exact .escaped c
  · exact .plain fun hs => hc (h c hs)

lemma language_literals (w : Text) : language (literals w) = {Utf8.encode w} := by
  induction w with
  | nil => exact language_nil
  | cons c w ih =>
    rw [literals_cons, language_cons, ih, Token.language, singleton_mul_singleton]
    rfl

lemma literals?_literals (w : Text) : literals? (literals w) = some w := by
  induction w with
  | nil => rfl
  | cons c w ih => rw [literals_cons, literals?, ih, Option.map_some]

lemma literals?_append_star (w : Text) : literals? (literals w ++ [.anyRun]) = none := by
  induction w with
  | nil => rfl
  | cons c w ih => rw [literals_cons, List.cons_append, literals?, ih, Option.map_none]

namespace Method

lemma ofTokens_literals {w : Text} (h : w ≠ []) : ofTokens (literals w) = whole w := by
  obtain ⟨c, w, rfl⟩ := List.exists_cons_of_ne_nil h
  have hwhole : whole? (literals (c :: w)) = some (c :: w) := by
    rw [whole?, literals?_literals]
    rfl
  have hname : name? (literals (c :: w)) = none := rfl
  simp [ofTokens, hname, hwhole]

lemma ofTokens_append_star {w : Text} (h : w ≠ []) :
    ofTokens (literals w ++ [.anyRun]) = front w := by
  obtain ⟨c, w, rfl⟩ := List.exists_cons_of_ne_nil h
  have hname : name? (literals (c :: w) ++ [.anyRun]) = none := rfl
  have hwhole : whole? (literals (c :: w) ++ [.anyRun]) = none := by
    rw [whole?, literals?_append_star]
    rfl
  have hextension : extension? (literals (c :: w) ++ [.anyRun]) = none := rfl
  have hfront : front? (literals (c :: w) ++ [.anyRun]) = some (c :: w) := by
    rw [front?, List.getLast?_concat, List.dropLast_concat, literals?_literals]
    rfl
  simp [ofTokens, hname, hwhole, hextension, hfront]

-- Neither a name nor a beginning is looked for in the last component.
lemma isByName_literals (w : Text) : (ofTokens (literals w)).isByName = false := by
  by_cases h : w = []
  · subst h
    rfl
  · rw [ofTokens_literals h]
    rfl

lemma isByName_append_star (w : Text) : (ofTokens (literals w ++ [.anyRun])).isByName = false := by
  by_cases h : w = []
  · subst h
    rfl
  · rw [ofTokens_append_star h]
    rfl

end Method

end PathSieve.Glob
