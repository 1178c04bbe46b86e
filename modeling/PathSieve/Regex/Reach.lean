import PathSieve.Positions
import PathSieve.Regex.Expression

/-!
Matching of regular expressions by reachable positions. A repetition is followed for no more rounds
than the subject has positions: by then the positions that it reaches do not change any more.
-/
namespace PathSieve.Regex

open Positions

abbrev Context := Option Char × Option Char

def contextsFrom (before : Option Char) : Text → List Context
  | [] => [(before, none)]
  | c :: s => (before, some c) :: contextsFrom (some c) s

def contexts (subject : Text) : List Context := contextsFrom none subject

def isWord (c : Option Char) : Bool := c.any isWordCharacter

def Look.holds : Look → Context → Bool
  | start, (before, _) => before.isNone
  | finish, (_, after) => after.isNone
  | lineStart, (before, _) => before.isNone || before = some '\n'
  | lineEnd, (_, after) => after.isNone || after = some '\n'
  | anyLineStart, (before, after) =>
    before.isNone || before = some '\n' || (before = some '\r' && after != some '\n')
  | anyLineEnd, (before, after) =>
    after.isNone || after = some '\r' || (after = some '\n' && before != some '\r')
  | boundary, (before, after) => isWord before != isWord after
  | noBoundary, (before, after) => isWord before == isWord after
  | wordStart, (before, after) => !isWord before && isWord after
  | wordEnd, (before, after) => isWord before && !isWord after
  | wordStartHalf, (before, _) => !isWord before
  | wordEndHalf, (_, after) => !isWord after

def restrict (condition : Look) (subject : Text) (v : List Bool) : List Bool :=
  List.zipWith (fun context reached => reached && condition.holds context) (contexts subject) v

-- Follows a step for a number of rounds, or until it changes nothing.
def rounds (f : List Bool → List Bool) : Nat → List Bool → List Bool
  | 0, v => v
  | n + 1, v =>
    let w := f v
    if w = v then v else rounds f n w

namespace Expression

mutual

def reach (subject : Text) : Expression → List Bool → List Bool
  | empty, v => v
  | one set, v => advance set.contains subject v
  | look condition _, v => restrict condition subject v
  | group _ inner, v => reach subject inner v
  | repetition inner least most, v =>
    let limit := subject.length + 2
    let required := rounds (reach subject inner) (min least limit) v
    let optional := match most with
      | none => limit
      | some most => min (most - least) limit
    rounds (fun w => union w (reach subject inner w)) optional required
  | concatenation parts, v => reachAll subject parts v
  | alternation branches, v => reachAny subject branches v

def reachAll (subject : Text) : List Expression → List Bool → List Bool
  | [], v => v
  | e :: es, v => reachAll subject es (e.reach subject v)

def reachAny (subject : Text) : List Expression → List Bool → List Bool
  | [], v => v.map fun _ => false
  | e :: es, v => union (e.reach subject v) (reachAny subject es v)

end

def occursIn (e : Expression) (subject : Text) : Bool :=
  (e.reach subject (everywhere subject)).any id

end Expression

end PathSieve.Regex
