import Mathlib.Data.Nat.Digits.Defs
import PathSieve.Toml.Statement

/-! The layouts of a TOML text. A relation of two texts, and of what is written, holds when the
first text starts with a spelling of it and the second text is what is left. -/

namespace PathSieve.Toml.Layout

inductive Spaces : Text → Text → Prop
  | stop (r : Text) : Spaces r r
  | skip {c : Char} {t r : Text} : isSpace c → Spaces t r → Spaces (c :: t) r

inductive Newline : Text → Text → Prop
  | feed (r : Text) : Newline ('\n' :: r) r
  | returnFeed (r : Text) : Newline ('\r' :: '\n' :: r) r

inductive Comment : Text → Text → Prop
  | mk {s : Text} (r : Text) : (∀ c ∈ s, isText c) → Comment ('#' :: (s ++ r)) r

inductive Filler : Text → Text → Prop
  | stop (r : Text) : Filler r r
  | skip {c : Char} {t r : Text} : isSpace c → Filler t r → Filler (c :: t) r
  | newline {t u r : Text} : Newline t u → Filler u r → Filler t r
  | comment {t u v r : Text} : Comment t u → Newline u v → Filler v r → Filler t r

inductive LineEnd : Text → Text → Prop
  | stop : LineEnd [] []
  | newline {t r : Text} : Newline t r → LineEnd t r
  | last {t : Text} : Comment t [] → LineEnd t []
  | comment {t u r : Text} : Comment t u → Newline u r → LineEnd t r
  | skip {c : Char} {t r : Text} : isSpace c → LineEnd t r → LineEnd (c :: t) r

def Numbers (digits : Text) (c : Char) : Prop :=
  ∃ values, List.Forall₂ (fun d v => Text.hexDigit? d = some v) digits values ∧
    Nat.ofDigits 16 values.reverse = c.toNat

/-- The characters of a string between its quotes, in any mixture of escapes. -/
inductive Body : Text → Text → Text → Prop
  | close (r : Text) : Body [] ('"' :: r) r
  | plain {c : Char} {s t r : Text} : isText c → c ≠ '"' → c ≠ '\\' → Body s t r →
      Body (c :: s) (c :: t) r
  | short {c e : Char} {s t r : Text} : shortEscape? e = some c → Body s t r →
      Body (c :: s) ('\\' :: e :: t) r
  | four {x a b c d : Char} {s t r : Text} : Numbers [a, b, c, d] x → Body s t r →
      Body (x :: s) ('\\' :: 'u' :: a :: b :: c :: d :: t) r
  | eight {x a b c d e f g h : Char} {s t r : Text} : Numbers [a, b, c, d, e, f, g, h] x →
      Body s t r → Body (x :: s) ('\\' :: 'U' :: a :: b :: c :: d :: e :: f :: g :: h :: t) r

inductive Quoted : Text → Text → Text → Prop
  | mk {s t r : Text} : Body s t r → Quoted s ('"' :: t) r

inductive Items : List Text → Text → Text → Prop
  | close {t r : Text} : Filler t (']' :: r) → Items [] t r
  | last {s t u v r : Text} : Filler t u → Quoted s u v → Filler v (']' :: r) → Items [s] t r
  | more {s t u v w r : Text} {ss : List Text} : Filler t u → Quoted s u v → Filler v (',' :: w) →
      Items ss w r → Items (s :: ss) t r

inductive Sequence : List Text → Text → Text → Prop
  | mk {ss : List Text} {t r : Text} : Items ss t r → Sequence ss ('[' :: t) r

abbrev Field := Text × List Text

inductive Pair : Field → Text → Text → Prop
  | mk {f : Field} {t u v w r : Text} : Spaces t (f.1 ++ u) → Spaces u ('=' :: v) → Spaces v w →
      Sequence f.2 w r → Pair f t r

inductive Fields : List Field → Text → Text → Prop
  | last {f : Field} {t u r : Text} : Pair f t u → Spaces u ('\x7d' :: r) → Fields [f] t r
  | more {f : Field} {fs : List Field} {t u v r : Text} : Pair f t u → Spaces u (',' :: v) →
      Fields fs v r → Fields (f :: fs) t r

inductive Braces : List Field → Text → Text → Prop
  | empty {t r : Text} : Spaces t ('\x7d' :: r) → Braces [] ('\x7b' :: t) r
  | fields {fs : List Field} {t r : Text} : Fields fs t r → Braces fs ('\x7b' :: t) r

inductive Line where
  | blank
  | setting (name value : Text)
  | dotted (table : Text) (field : Field)
  | inline (table : Text) (fields : List Field)
  | header (table : Text)
  | field (field : Field)

inductive Line.Written : Line → Text → Text → Prop
  | blank (r : Text) : Written .blank r r
  | setting {name value t u v w r : Text} : Spaces t (name ++ u) → Spaces u ('=' :: v) →
      Spaces v w → Quoted value w r → Written (.setting name value) t r
  | dotted {table t u v r : Text} {f : Field} : Spaces t (table ++ u) → Spaces u ('.' :: v) →
      Pair f v r → Written (.dotted table f) t r
  | inline {table t u v w r : Text} {fs : List Field} : Spaces t (table ++ u) →
      Spaces u ('=' :: v) → Spaces v w → Braces fs w r → Written (.inline table fs) t r
  | header {table t u v r : Text} : Spaces t ('[' :: u) → Spaces u (table ++ v) →
      Spaces v (']' :: r) → Written (.header table) t r
  | field {f : Field} {t r : Text} : Pair f t r → Written (.field f) t r

inductive Document : List Line → Text → Prop
  | nil : Document [] []
  | cons {l : Line} {ls : List Line} {t u v : Text} : t ≠ [] → l.Written t u → LineEnd u v →
      Document ls v → Document (l :: ls) t

end PathSieve.Toml.Layout
