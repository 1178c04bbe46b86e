import PathSieve.Path
import PathSieve.Positions
import PathSieve.Glob.Token

/-!
Matching of patterns by reachable positions: each token turns the set of positions where it may
start into the set where it may end, so the work is the number of tokens times the length of the
subject, whatever the stars.
-/
namespace PathSieve.Glob

open Positions

/-- The bytes that a range of a class stands for, as ranges: the bytes of a single member, or else
the leading bytes of the lower end, the bytes from its last one to the first of the upper end, and
the remaining bytes of that. -/
def byteRanges (range : Char × Char) : List (UInt8 × UInt8) :=
  let low := String.utf8EncodeChar range.1
  let high := String.utf8EncodeChar range.2
  if range.1 = range.2 then low.map fun b => (b, b)
  else
    low.dropLast.map (fun b => (b, b)) ++ [(low.getLastD 0, high.headD 0)] ++
      high.tail.map fun b => (b, b)

def isMember (negated : Bool) (ranges : List (Char × Char)) (b : UInt8) : Bool :=
  (ranges.flatMap byteRanges).any (fun (low, high) => low ≤ b && b ≤ high) != negated

mutual

-- Holds for braces that have nothing between them; such a branch is left out of a choice.
def Token.isVoid : Token → Bool
  | .choice branches => areAllVoid branches
  | _ => false

def isVoid : List Token → Bool
  | [] => true
  | t :: ts => t.isVoid && isVoid ts

def areAllVoid : List (List Token) → Bool
  | [] => true
  | b :: bs => isVoid b && areAllVoid bs

end

mutual

def Token.reach (subject : Bytes) : Token → List Bool → List Bool
  | .literal c, v => advanceAll (String.utf8EncodeChar c) subject v
  | .anyByte, v => advance (fun _ => true) subject v
  | .anyRun, v => closure false v
  | .dirsBefore, v => union v (advance (· == Path.slash) subject (closure false v))
  | .allBelow, v => closure false (advance (· == Path.slash) subject v)
  | .dirsBetween, v =>
    let w := advance (· == Path.slash) subject v
    union w (advance (· == Path.slash) subject (closure false w))
  | .member negated ranges, v => advance (isMember negated ranges) subject v
  | .choice branches, v =>
    if areAllVoid branches then v else reachAny subject branches v

def reach (subject : Bytes) : List Token → List Bool → List Bool
  | [], v => v
  | t :: ts, v => reach subject ts (t.reach subject v)

def reachAny (subject : Bytes) : List (List Token) → List Bool → List Bool
  | [], v => v.map fun _ => false
  | b :: bs, v =>
    if isVoid b then reachAny subject bs v
    else union (reach subject b v) (reachAny subject bs v)

end

def covers (tokens : List Token) (subject : Bytes) : Bool :=
  (reach subject tokens (start subject)).getLastD false

end PathSieve.Glob
