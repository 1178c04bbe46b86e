import PathSieve.Glob.Reach
import PathSieve.Proofs.Positions

namespace PathSieve.Glob

open Positions

def slashWord : Language UInt8 := {[Path.slash]}

def dirs : Language UInt8 := 1 + ⊤ * slashWord

mutual

def Token.language : Token → Language UInt8
  | .literal c => {String.utf8EncodeChar c}
  | .anyByte => lettersOf fun _ => true
  | .anyRun => ⊤
  | .dirsBefore => dirs
  | .allBelow => slashWord * ⊤
  | .dirsBetween => slashWord * dirs
  | .member negated ranges => lettersOf (isMember negated ranges)
  | .choice branches => if areAllVoid branches then 1 else anyLanguage branches

def language : List Token → Language UInt8
  | [] => 1
  | t :: ts => t.language * language ts

def anyLanguage : List (List Token) → Language UInt8
  | [] => 0
  | b :: bs => if isVoid b then anyLanguage bs else language b + anyLanguage bs

end

@[simp] lemma language_nil : language [] = 1 := by rw [language]

@[simp] lemma language_cons (t : Token) (ts : List Token) :
    language (t :: ts) = t.language * language ts := by rw [language]

@[simp] lemma language_append (ts us : List Token) :
    language (ts ++ us) = language ts * language us := by
  induction ts with
  | nil => simp
  | cons t ts ih => rw [List.cons_append, language_cons, language_cons, ih, mul_assoc]

mutual

lemma Token.length_reach {subject : Bytes} (t : Token) {v : List Bool}
    (h : v.length = subject.length + 1) : (t.reach subject v).length = subject.length + 1 := by
  cases t with
  | literal c => exact length_advanceAll _ h
  | anyByte => exact length_advance h
  | anyRun => exact (length_closure false v).trans h
  | dirsBefore =>
    have hc := length_advance (p := (· == Path.slash)) ((length_closure false v).trans h)
    exact (length_union (h.trans hc.symm)).trans hc
  | allBelow => exact (length_closure false _).trans (length_advance h)
  | dirsBetween =>
    have hw := length_advance (p := (· == Path.slash)) h
    have hc := length_advance (p := (· == Path.slash)) ((length_closure false _).trans hw)
    exact (length_union (hw.trans hc.symm)).trans hc
  | member negated ranges => exact length_advance h
  | choice branches =>
    rw [Token.reach]
    split
    · exact h
    · exact length_reachAny branches h

lemma length_reach {subject : Bytes} (ts : List Token) {v : List Bool}
    (h : v.length = subject.length + 1) : (reach subject ts v).length = subject.length + 1 := by
  cases ts with
  | nil => simpa [reach] using h
  | cons t ts =>
    rw [reach]
    exact length_reach ts (Token.length_reach t h)

lemma length_reachAny {subject : Bytes} (bs : List (List Token)) {v : List Bool}
    (h : v.length = subject.length + 1) :
    (reachAny subject bs v).length = subject.length + 1 := by
  cases bs with
  | nil => simpa [reachAny] using h
  | cons b bs =>
    rw [reachAny]
    split
    · exact length_reachAny bs h
    · have hb := length_reach b h
      have hbs := length_reachAny bs h
      exact (length_union (hb.trans hbs.symm)).trans hbs

end

lemma inf_add_inf (l m p : Language UInt8) : l ⊓ p + m ⊓ p = (l + m) ⊓ p :=
  (inf_sup_right l m p).symm

lemma reached_slash (subject : Bytes) (v : List Bool) :
    reached subject (advance (· == Path.slash) subject v) =
      reached subject v * slashWord ⊓ prefixes subject := by
  rw [reached_advance, lettersOf_beq]
  rfl

lemma reached_dirs {subject : Bytes} {v : List Bool} (h : v.length = subject.length + 1) :
    reached subject (union v (advance (· == Path.slash) subject (closure false v))) =
      reached subject v * dirs ⊓ prefixes subject := by
  have hc := length_advance (p := (· == Path.slash)) ((length_closure false v).trans h)
  rw [reached_union subject (h.trans hc.symm), reached_slash, reached_closure subject h,
    mul_inf_prefixes, dirs, mul_add, mul_one, ← inf_add_inf, reached_inf, mul_assoc]

mutual

lemma Token.reached_reach {subject : Bytes} (t : Token) {v : List Bool}
    (h : v.length = subject.length + 1) :
    reached subject (t.reach subject v) =
      reached subject v * t.language ⊓ prefixes subject := by
  cases t with
  | literal c =>
    rw [Token.reach, Token.language]
    exact reached_advanceAll _ subject v
  | anyByte =>
    rw [Token.reach, Token.language]
    exact reached_advance _ subject v
  | anyRun =>
    rw [Token.reach, Token.language]
    exact reached_closure subject h
  | dirsBefore =>
    rw [Token.reach, Token.language]
    exact reached_dirs h
  | allBelow =>
    rw [Token.reach, Token.language, reached_closure subject (length_advance h), reached_slash,
      mul_inf_prefixes, mul_assoc]
  | dirsBetween =>
    rw [Token.reach, Token.language, reached_dirs (length_advance h), reached_slash,
      mul_inf_prefixes, mul_assoc]
  | member negated ranges =>
    rw [Token.reach, Token.language]
    exact reached_advance _ subject v
  | choice branches =>
    rw [Token.reach, Token.language]
    split
    · rw [mul_one, reached_inf]
    · exact reached_reachAny branches h

lemma reached_reach {subject : Bytes} (ts : List Token) {v : List Bool}
    (h : v.length = subject.length + 1) :
    reached subject (reach subject ts v) =
      reached subject v * language ts ⊓ prefixes subject := by
  cases ts with
  | nil => rw [reach, language_nil, mul_one, reached_inf]
  | cons t ts =>
    rw [reach, reached_reach ts (Token.length_reach t h), Token.reached_reach t h,
      mul_inf_prefixes, language_cons, mul_assoc]

lemma reached_reachAny {subject : Bytes} (bs : List (List Token)) {v : List Bool}
    (h : v.length = subject.length + 1) :
    reached subject (reachAny subject bs v) =
      reached subject v * anyLanguage bs ⊓ prefixes subject := by
  cases bs with
  | nil =>
    rw [reachAny, anyLanguage, reached_none, mul_zero]
    exact (bot_inf_eq _).symm
  | cons b bs =>
    rw [reachAny, anyLanguage]
    split
    · exact reached_reachAny bs h
    · have hb := length_reach b h
      have hbs := length_reachAny bs h
      rw [reached_union subject (hb.trans hbs.symm), reached_reach b h, reached_reachAny bs h,
        inf_add_inf, mul_add]

end

theorem covers_iff_mem_language {tokens : List Token} {subject : Bytes} :
    covers tokens subject = true ↔ subject ∈ language tokens := by
  have hs := length_start subject
  rw [covers, getLastD_iff (length_reach tokens hs), reached_reach tokens hs, reached_start,
    one_mul]
  exact ⟨fun h => h.1, fun h => ⟨h, List.prefix_refl subject⟩⟩

end PathSieve.Glob
