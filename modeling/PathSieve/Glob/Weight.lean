import PathSieve.Glob.Reach
import PathSieve.Regex.Weight

/-!
How much room the automaton for the expressions of patterns takes, which is limited. The branches of
braces are counted apart, though those that are alike in part may share some room; so where there
are braces, this is a bound.
-/
namespace PathSieve.Glob

open Regex (stateSize branchSize classSize)

def anySize : Nat := classSize 1

def runSize : Nat := anySize + stateSize + 2 * branchSize

def choiceSize (count : Nat) : Nat := 2 * stateSize + branchSize * count

def memberSize (negated : Bool) (ranges : List (Char × Char)) : Nat :=
  let isIn : Nat → Bool := fun n => isMember negated ranges (.ofNat n)
  let members := (List.range 256).filter isIn
  if members.length = 1 then stateSize
  else classSize (members.countP fun n => n = 0 || !isIn (n - 1))

mutual

def Token.size : Token → Nat
  | .literal c => stateSize * (String.utf8EncodeChar c).length
  | .anyByte => anySize
  | .anyRun => runSize
  | .dirsBefore =>
    -- an optional slash, or a run with a slash behind it
    choiceSize 2 + (3 * stateSize + 2 * branchSize) + (runSize + stateSize)
  | .allBelow => stateSize + runSize
  | .dirsBetween => choiceSize 2 + stateSize + (stateSize + runSize + stateSize)
  | .member negated ranges => memberSize negated ranges
  | .choice branches =>
    let (count, size) := branchSizes branches
    if count ≤ 1 then size else choiceSize count + size

def sequenceSize : List Token → Nat
  | [] => 0
  | t :: ts => t.size + sequenceSize ts

-- The number of branches that are not void, and their room.
def branchSizes : List (List Token) → Nat × Nat
  | [] => (0, 0)
  | b :: bs =>
    let (count, size) := branchSizes bs
    if isVoid b then (count, size) else (count + 1, sequenceSize b + size)

end

def size (tokens : List Token) : Nat :=
  5 * stateSize + match tokens with
    | [.dirsBefore] => runSize
    | tokens => sequenceSize tokens

def setSize (patterns : List (List Token)) : Nat :=
  stateSize + (if patterns.length ≤ 1 then 0 else choiceSize patterns.length) +
    (patterns.map size).foldr (· + ·) 0

def sizeLimit : Nat := 10485760

def isTooLarge (patterns : List (List Token)) : Bool := sizeLimit < setSize patterns

end PathSieve.Glob
