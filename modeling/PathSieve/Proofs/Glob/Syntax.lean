import Mathlib.Data.List.Basic
import PathSieve.Glob.Reach

/-! The grammar of patterns and what a pattern means. A pattern is spelled by a tree of nodes, and
the tree alone, without tokens or positions, tells which byte strings it covers. -/

namespace PathSieve.Glob

/-- A member of a class as it is written: a character, and the upper ends that the hyphens behind
it set, each in place of the one before. -/
structure Member where
  low : Char
  highs : List Char

namespace Member

def text (m : Member) : Text := m.low :: m.highs.flatMap (['-', ·])

def high (m : Member) : Char := m.highs.getLastD m.low

def Has (m : Member) (b : UInt8) : Prop :=
  if m.low = m.high then b ∈ String.utf8EncodeChar m.low
  else b ∈ (String.utf8EncodeChar m.low).dropLast ∨
    ((String.utf8EncodeChar m.low).getLastD 0 ≤ b ∧ b ≤ (String.utf8EncodeChar m.high).headD 0) ∨
    b ∈ (String.utf8EncodeChar m.high).tail

end Member

structure Class where
  sign : Option Char
  first : Member
  others : List Member
  hyphen : Bool

namespace Class

def hyphens (k : Class) : Text := if k.hyphen then ['-'] else []

def text (k : Class) : Text :=
  '[' :: (k.sign.toList ++ (k.first.text ++ (k.others.flatMap Member.text ++
    (k.hyphens ++ [']']))))

structure Valid (k : Class) : Prop where
  sign : ∀ c ∈ k.sign, c = '!' ∨ c = '^'
  first : k.sign = none → k.first.low ≠ '!' ∧ k.first.low ≠ '^'
  lows : ∀ m ∈ k.others, m.low ≠ ']' ∧ m.low ≠ '-'
  highs : ∀ m ∈ k.first :: k.others, ∀ c ∈ m.highs, c ≠ ']' ∧ m.low ≤ c

def Spells (k : Class) (b : UInt8) : Prop :=
  (∃ m ∈ k.first :: k.others, m.Has b) ∨ k.hyphen = true ∧ b ∈ String.utf8EncodeChar '-'

def Has (k : Class) (b : UInt8) : Prop :=
  if k.sign.isSome then ¬ k.Spells b else k.Spells b

end Class

inductive Letter where
  | plain (c : Char)
  | escaped (c : Char)
  | members (k : Class)

namespace Letter

def text : Letter → Text
  | plain c => [c]
  | escaped c => ['\\', c]
  | members k => k.text

inductive Valid : Letter → Prop
  | plain {c : Char} : c ≠ '\\' → c ≠ '[' → Valid (plain c)
  | escaped {c : Char} : Valid (escaped c)
  | members {k : Class} : k.Valid → Valid (members k)

inductive Fits : Letter → Bytes → Prop
  | char {c : Char} : c ≠ '?' → c ≠ '*' → Fits (plain c) (String.utf8EncodeChar c)
  | escaped {c : Char} : Fits (escaped c) (String.utf8EncodeChar c)
  | anyByte (b : UInt8) : Fits (plain '?') [b]
  | anyRun (s : Bytes) : Fits (plain '*') s
  | members {k : Class} {b : UInt8} : k.Has b → Fits (members k) [b]

end Letter

inductive Node where
  | letter (l : Letter)
  | choice (first : List Node) (others : List (List Node))

mutual

def Node.spelling : Node → List Letter
  | .letter l => [l]
  | .choice first others => .plain '\x7b' :: (spelling first ++ branchSpelling others)

def spelling : List Node → List Letter
  | [] => []
  | n :: ns => n.spelling ++ spelling ns

def branchSpelling : List (List Node) → List Letter
  | [] => [.plain '\x7d']
  | b :: bs => .plain ',' :: (spelling b ++ branchSpelling bs)

end

def text (ns : List Node) : Text := (spelling ns).flatMap Letter.text

inductive Node.Valid : (inside : Bool) → Node → Prop
  | letter {inside : Bool} {l : Letter} : l.Valid → l ≠ .plain '\x7b' → l ≠ .plain '\x7d' →
      (inside = true → l ≠ .plain ',') → Node.Valid inside (.letter l)
  | choice {inside : Bool} {first : List Node} {others : List (List Node)} :
      (∀ b ∈ first :: others, ∀ n ∈ b, Node.Valid true n) →
      Node.Valid inside (.choice first others)

inductive Node.Blank : Node → Prop
  | choice {first : List Node} {others : List (List Node)} :
      (∀ b ∈ first :: others, ∀ n ∈ b, Node.Blank n) → Node.Blank (.choice first others)

mutual

inductive Node.Fits : Node → Bytes → Prop
  | letter {l : Letter} {s : Bytes} : l.Fits s → Node.Fits (.letter l) s
  | branch {first b : List Node} {others : List (List Node)} {s : Bytes} :
      b ∈ first :: others → ¬ (∀ n ∈ b, n.Blank) → FitsAll b s →
      Node.Fits (.choice first others) s
  | blank {first : List Node} {others : List (List Node)} :
      (∀ b ∈ first :: others, ∀ n ∈ b, n.Blank) → Node.Fits (.choice first others) []

inductive FitsAll : List Node → Bytes → Prop
  | nil : FitsAll [] []
  | cons {n : Node} {ns : List Node} {s t : Bytes} :
      Node.Fits n s → FitsAll ns t → FitsAll (n :: ns) (s ++ t)

end

def star : Node := .letter (.plain '*')

def slash : Node := .letter (.plain '/')

def Node.isSlash : Node → Bool
  | .letter (.plain c) => c == '/'
  | .letter (.escaped c) => c == '/'
  | _ => false

def StartsDirs (ns : List Node) : Prop := ns = [star, star] ∨ [star, star, slash] <+: ns

/-- What a pattern outside braces covers; `fresh` holds where a component starts. A component `**`
with its slash covers nothing or anything that ends in a slash, and as the last component it covers
anything, so a chain of such components covers what one of them does. -/
inductive Covers : (fresh : Bool) → List Node → Bytes → Prop
  | nil {fresh : Bool} : Covers fresh [] []
  | node {fresh : Bool} {n : Node} {ns : List Node} {s t : Bytes} :
      ¬ (fresh = true ∧ StartsDirs (n :: ns)) → n.Fits s → Covers n.isSlash ns t →
      Covers fresh (n :: ns) (s ++ t)
  | dirsLast (s : Bytes) : Covers true [star, star] s
  | dirsNone {ns : List Node} {s : Bytes} : Covers true ns s →
      Covers true (star :: star :: slash :: ns) s
  | dirsSome {ns : List Node} {t : Bytes} (s : Bytes) : Covers true ns t →
      Covers true (star :: star :: slash :: ns) (s ++ Path.slash :: t)

def OnlyDirs (ns : List Node) : Prop :=
  ∃ n : ℕ, ns = (List.replicate (n + 1) [star, star, slash]).flatten

/-- The meaning of a pattern: it covers all of the word. One of nothing but `**` covers every
word. -/
def Matches (pattern : Text) (word : Bytes) : Prop :=
  ∃ ns, (∀ n ∈ ns, n.Valid false) ∧ text ns = pattern ∧ (Covers true ns word ∨ OnlyDirs ns)

def starsApart : (depth : ℕ) → List Piece → Bool
  | _, [] => true
  | depth, .plain c :: ps =>
    !(depth != 0 && c == '*' && ps.head? == some (.plain '*')) &&
      starsApart (if c = '\x7b' then depth + 1 else if c = '\x7d' then depth - 1 else depth) ps
  | depth, _ :: ps => starsApart depth ps

end PathSieve.Glob
