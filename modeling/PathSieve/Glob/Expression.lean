import PathSieve.Text
import PathSieve.Glob.Reach

/-!
Regular expressions of patterns. A pattern that no shortcut decides is handed on as a regular
expression, and that form limits how deep its braces may nest. `expression` is the text, `depth` its
nesting, counted in groups, alternations, concatenations, repetitions and classes.
-/
namespace PathSieve.Glob

def byteText (b : UInt8) : Text :=
  if b < 0x80 then
    let c := Char.ofNat b.toNat
    if c ∈ "\\.+*?()|[]\x7b\x7d^$#&-~".toList then ['\\', c] else [c]
  else ['\\', 'x', Nat.digitChar (b.toNat / 16), Nat.digitChar (b.toNat % 16)]

def charText (c : Char) : Text := (String.utf8EncodeChar c).flatMap byteText

def rangeText (range : Char × Char) : Text :=
  if range.1 = range.2 then charText range.1 else charText range.1 ++ '-' :: charText range.2

mutual

def Token.expression : Token → Text
  | .literal c => charText c
  | .anyByte => ['.']
  | .anyRun => ".*".toList
  | .dirsBefore => "(?:/?|.*/)".toList
  | .allBelow => "/.*".toList
  | .dirsBetween => "(?:/|/.*/)".toList
  | .member negated ranges =>
    '[' :: (if negated then ['^'] else []) ++ ranges.flatMap rangeText ++ [']']
  | .choice branches =>
    if areAllVoid branches then [] else "(?:".toList ++ Text.join ['|'] (parts branches) ++ [')']

def sequence : List Token → Text
  | [] => []
  | t :: ts => t.expression ++ sequence ts

def parts : List (List Token) → List Text
  | [] => []
  | b :: bs => if isVoid b then parts bs else sequence b :: parts bs

end

def expression (tokens : List Token) : Text :=
  "(?-u)^".toList ++
    (match tokens with
      | [.dirsBefore] => ".*".toList
      | tokens => sequence tokens) ++ ['$']

/-- How deep a token's expression nests, and how many items it adds to the sequence around it. -/
structure Shape where
  items : Nat
  depth : Nat

namespace Shape

def append (a b : Shape) : Shape := ⟨a.items + b.items, max a.depth b.depth⟩

def sequenceDepth (s : Shape) : Nat := if 2 ≤ s.items then s.depth + 1 else s.depth

end Shape

mutual

def Token.shape : Token → Shape
  | .literal c => ⟨(String.utf8EncodeChar c).length, 0⟩
  | .anyByte => ⟨1, 0⟩
  | .anyRun => ⟨1, 1⟩
  | .dirsBefore => ⟨1, 4⟩
  | .allBelow => ⟨2, 1⟩
  | .dirsBetween => ⟨1, 4⟩
  | .member _ ranges => ⟨1, if 2 ≤ (ranges.flatMap byteRanges).length then 2 else 1⟩
  | .choice branches =>
    if areAllVoid branches then ⟨0, 0⟩
    else
      let (count, depth) := branchShape branches
      ⟨1, depth + if 2 ≤ count then 2 else 1⟩

def sequenceShape : List Token → Shape
  | [] => ⟨0, 0⟩
  | t :: ts => t.shape.append (sequenceShape ts)

def branchShape : List (List Token) → Nat × Nat
  | [] => (0, 0)
  | b :: bs =>
    let (count, depth) := branchShape bs
    if isVoid b then (count, depth)
    else (count + 1, max (sequenceShape b).sequenceDepth depth)

end

def depth (tokens : List Token) : Nat := (sequenceShape tokens).depth + 1

def depthLimit : Nat := 250

end PathSieve.Glob
