import PathSieve.Regex.Classes

/-!
What regular expressions mean once the modes are known that each part is read in. A mode that is
switched on or off stays so up to the end of the group around it.
-/
namespace PathSieve.Regex

inductive Look where
  | start
  | finish
  | lineStart
  | lineEnd
  | anyLineStart
  | anyLineEnd
  | boundary
  | noBoundary
  | wordStart
  | wordEnd
  | wordStartHalf
  | wordEndHalf
  deriving DecidableEq, Repr

inductive Expression where
  | empty
  | one (set : CharSet)
  | look (condition : Look) (beyondAscii : Bool)
  | group (isCaptured : Bool) (inner : Expression)
  | repetition (inner : Expression) (least : Nat) (most : Option Nat)
  | concatenation (parts : List Expression)
  | alternation (branches : List Expression)

def Anchor.look (modes : List Mode) : Anchor → Look
  | lineStart =>
    if .lines ∉ modes then .start
    else if .carriageReturns ∈ modes then .anyLineStart else .lineStart
  | lineEnd =>
    if .lines ∉ modes then .finish
    else if .carriageReturns ∈ modes then .anyLineEnd else .lineEnd
  | textStart => .start
  | textEnd => .finish
  | boundary => .boundary
  | noBoundary => .noBoundary
  | wordStart => .wordStart
  | wordEnd => .wordEnd
  | wordStartHalf => .wordStartHalf
  | wordEndHalf => .wordEndHalf

def Look.isAboutWords : Look → Bool
  | start | finish | lineStart | lineEnd | anyLineStart | anyLineEnd => false
  | _ => true

def dotSet (modes : List Mode) : CharSet :=
  if .dotTakesAll ∈ modes then CharSet.empty.complement
  else if .carriageReturns ∈ modes then
    (CharSet.ofRanges [('\n'.toNat, '\n'.toNat), ('\r'.toNat, '\r'.toNat)]).complement
  else (CharSet.ofChar '\n').complement

def Literal.set (modes : List Mode) (c : Literal) : Option CharSet :=
  if .unicode ∈ modes then if .anyCase ∈ modes then none else some (.ofChar c.char)
  else if c.isByte && 0x80 ≤ c.char.toNat then none
  else if .anyCase ∈ modes then some (CharSet.ofChar c.char).withBothCases
  else some (.ofChar c.char)

def GroupKind.modes (kind : GroupKind) (modes : List Mode) : List Mode :=
  match kind with
  | captured => modes
  | switching switch => switch.apply modes

namespace Term

mutual

def resolve (modes : List Mode) : Term → Option (Expression × List Mode)
  | empty => some (.empty, modes)
  | switch s => some (.empty, s.apply modes)
  | literal c => do some (.one (← c.set modes), modes)
  | dot => if .unicode ∈ modes then some (.one (dotSet modes), modes) else none
  | anchor a =>
    let look := a.look modes
    some (.look look (look.isAboutWords && .unicode ∈ modes), modes)
  | shorthand isNegated kind => do
    some (.one (← (ClassReading.ofModes modes).shorthand isNegated kind), modes)
  | bracketed isNegated body => do
    let reading := ClassReading.ofModes modes
    some (.one (← reading.negate isNegated (← body.set reading)), modes)
  | group kind inner => do
    let (e, _) ← inner.resolve (kind.modes modes)
    some (.group (kind = .captured) e, modes)
  | repetition inner least most => do
    let (e, modes) ← inner.resolve modes
    some (.repetition e least most, modes)
  | concatenation parts => do
    let (es, modes) ← resolveAll modes parts
    some (.concatenation es, modes)
  | alternation branches => do
    let (es, modes) ← resolveAll modes branches
    some (.alternation es, modes)

def resolveAll (modes : List Mode) : List Term → Option (List Expression × List Mode)
  | [] => some ([], modes)
  | t :: ts => do
    let (e, modes) ← t.resolve modes
    let (es, modes) ← resolveAll modes ts
    some (e :: es, modes)

end

def expression? (t : Term) : Option Expression := (t.resolve [.unicode]).map (·.1)

end Term

end PathSieve.Regex
