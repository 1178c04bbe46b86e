import PathSieve.Regex.Term
import PathSieve.Text.CharSet

/-!
The characters of a class. Classes that are written by a shorthand, and letters of any case, are
known for ASCII only: an expression that asks for them beyond ASCII has no meaning here, and one
that is about bytes must not reach beyond ASCII, since it might match a part of a character.
-/
namespace PathSieve.Regex

def ClassName.ranges : ClassName → List (Char × Char)
  | alnum => [('0', '9'), ('A', 'Z'), ('a', 'z')]
  | alpha => [('A', 'Z'), ('a', 'z')]
  | ascii => [('\x00', '\x7f')]
  | blank => [('\t', '\t'), (' ', ' ')]
  | cntrl => [('\x00', '\x1f'), ('\x7f', '\x7f')]
  | digit => [('0', '9')]
  | graph => [('!', '~')]
  | lower => [('a', 'z')]
  | print => [(' ', '~')]
  | punct => [('!', '/'), (':', '@'), ('[', '\x60'), ('\x7b', '~')]
  | space => [('\t', '\r'), (' ', ' ')]
  | upper => [('A', 'Z')]
  | word => [('0', '9'), ('A', 'Z'), ('_', '_'), ('a', 'z')]
  | xdigit => [('0', '9'), ('A', 'F'), ('a', 'f')]

def ClassName.set (name : ClassName) : CharSet :=
  .ofRanges (name.ranges.map fun (low, high) => (low.toNat, high.toNat))

def Shorthand.name : Shorthand → ClassName
  | digit => .digit
  | blank => .space
  | word => .word

def isWordCharacter (c : Char) : Bool := ClassName.word.set.contains c

structure ClassReading where
  anyCase : Bool
  unicode : Bool

def ClassReading.ofModes (modes : List Mode) : ClassReading :=
  ⟨.anyCase ∈ modes, .unicode ∈ modes⟩

namespace ClassReading

def negate (reading : ClassReading) (isNegated : Bool) (set : CharSet) : Option CharSet :=
  if isNegated then if reading.unicode then some set.complement else none else some set

def written (reading : ClassReading) (set : CharSet) : Option CharSet :=
  if !reading.anyCase then some set
  else if reading.unicode then none
  else some set.withBothCases

def shorthand (reading : ClassReading) (isNegated : Bool) (kind : Shorthand) : Option CharSet :=
  if reading.unicode || isNegated then none else some kind.name.set

def between (reading : ClassReading) (low high : Literal) : Option CharSet :=
  if !reading.unicode && 0x80 ≤ high.char.toNat then none
  else reading.written ⟨[(low.char.toNat, high.char.toNat)]⟩

end ClassReading

mutual

def Member.set (reading : ClassReading) : Member → Option CharSet
  | .single c => reading.between c c
  | .range low high => reading.between low high
  | .named isNegated name => do reading.negate isNegated (← reading.written name.set)
  | .shorthand isNegated kind => reading.shorthand isNegated kind
  | .nested isNegated body => do reading.negate isNegated (← body.set reading)

def ClassBody.set (reading : ClassReading) : ClassBody → Option CharSet
  | .union members => Member.unionOf reading members
  | .combined operator left right => do
    let a ← left.set reading
    let b ← right.set reading
    some (match operator with
      | .intersection => a.inter b
      | .difference => a.diff b
      | .symmetricDifference => a.symmDiff b)

def Member.unionOf (reading : ClassReading) : List Member → Option CharSet
  | [] => some .empty
  | m :: ms => do some ((← m.set reading).union (← Member.unionOf reading ms))

end

end PathSieve.Regex
