import PathSieve.Regex.Expression
import PathSieve.Text.Utf8.Sequences

/-!
How much room an automaton for a regular expression takes, which is limited. It reads bytes, in one
direction or the other: forwards it also keeps the groups, and characters beyond ASCII share what
follows their first bytes; backwards they share their first bytes.
-/
namespace PathSieve.Regex

inductive Direction where
  | forwards
  | backwards
  deriving DecidableEq, Repr

-- The room for a state, for a byte that leads from it, and for another state that it leads to.
def stateSize : Nat := 32

def transitionSize : Nat := 8

def branchSize : Nat := 4

def fronts {α : Type} : List α → List (List α)
  | [] => []
  | a :: s => [a] :: (fronts s).map (a :: ·)

def distinct {α : Type} [DecidableEq α] (ss : List (List α)) : Nat := ss.eraseDups.length

def classSize (count : Nat) : Nat :=
  if count = 0 then stateSize
  else 2 * stateSize + if count = 1 then 0 else transitionSize * count

def setSize (direction : Direction) (set : CharSet) : Nat :=
  match set.single? with
  | some c => stateSize * c.utf8Size
  | none =>
    if set.isAscii then classSize set.ranges.length
    else
      let shapes := Utf8.shapesOf set
      match direction with
      | .forwards =>
        let tails := shapes.flatMap fun shape => (fronts shape.reverse).filter (· != shape.reverse)
        stateSize * (distinct tails + 2) + transitionSize * distinct (shapes.map (·.take 1))
      | .backwards =>
        stateSize * (distinct (shapes.flatMap fronts) + 2) + branchSize * shapes.length

namespace Expression

mutual

def isVoid : Expression → Bool
  | empty | look _ _ => true
  | one _ => false
  | group _ inner => isVoid inner
  | repetition inner _ most => most = some 0 || isVoid inner
  | concatenation parts => areAllVoid parts
  | alternation branches => areAllVoid branches

def areAllVoid : List Expression → Bool
  | [] => true
  | e :: es => isVoid e && areAllVoid es

end

-- The bounds of a repetition that count; more than one round of nothing is like one round.
def roundsOf (inner : Expression) (least : Nat) (most : Option Nat) : Nat × Option Nat :=
  if inner.isVoid then (min least 1, some (min (most.getD 1) 1)) else (least, most)

def repeatedSize (size : Nat) : Nat × Option Nat → Nat
  | (_, some 0) => stateSize
  | (1, some 1) => size
  | (least, some most) =>
    size * most + if least = most then 0 else
      stateSize + (most - least) * (stateSize + 2 * branchSize)
  | (least, none) => size * max least 1 + stateSize + 2 * branchSize

mutual

def size (direction : Direction) : Expression → Nat
  | empty | look _ _ => stateSize
  | one set => setSize direction set
  | group isCaptured inner =>
    inner.size direction + if isCaptured && direction = .forwards then 2 * stateSize else 0
  | repetition inner least most =>
    repeatedSize (inner.size direction) (roundsOf inner least most)
  | concatenation parts => sizeOfAll direction parts
  | alternation branches =>
    2 * stateSize + branchSize * branches.length + sizeOfAll direction branches

def sizeOfAll (direction : Direction) : List Expression → Nat
  | [] => 0
  | e :: es => e.size direction + sizeOfAll direction es

end

-- The room for what goes around an expression: the group that it forms, and what is skipped.
def frameSize : Nat := 6 * stateSize

def sizeLimit : Nat := 10485760

def isTooLarge (direction : Direction) (e : Expression) : Bool :=
  sizeLimit < frameSize + e.size direction

mutual

def asksBeyondAscii : Expression → Bool
  | look _ beyondAscii => beyondAscii
  | group _ inner => asksBeyondAscii inner
  | repetition inner _ most => most != some 0 && asksBeyondAscii inner
  | concatenation parts => doesAnyAsk parts
  | alternation branches => doesAnyAsk branches
  | empty | one _ => false

def doesAnyAsk : List Expression → Bool
  | [] => false
  | e :: es => asksBeyondAscii e || doesAnyAsk es

end

end Expression

end PathSieve.Regex
