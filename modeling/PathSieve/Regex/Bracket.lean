import PathSieve.Regex.Escape

/-!
Classes in brackets. A bracket inside a class opens a class of its own, and operators join what
stands on their sides, the leftmost first. Dashes in front of the members stand for themselves, and
so does a closing bracket before every other member.
-/
namespace PathSieve.Regex

def classNames : List (String × ClassName) :=
  [("alnum", .alnum), ("alpha", .alpha), ("ascii", .ascii), ("blank", .blank), ("cntrl", .cntrl),
    ("digit", .digit), ("graph", .graph), ("lower", .lower), ("print", .print), ("punct", .punct),
    ("space", .space), ("upper", .upper), ("word", .word), ("xdigit", .xdigit)]

def ofName (isNegated : Bool) (s : Text) : Option (Member × Text) :=
  match s.dropWhile (· != ':') with
  | ':' :: ']' :: r =>
    (classNames.find? (·.1.toList == s.takeWhile (· != ':'))).map fun (_, name) =>
      (.named isNegated name, r)
  | _ => none

def namedClass? : Text → Option (Member × Text)
  | ':' :: '^' :: s => ofName true s
  | ':' :: s => ofName false s
  | _ => none

structure OpenClass where
  isNegated : Bool := false
  left : Option (ClassBody × ClassOperator) := none
  members : List Member := []
  isFresh : Bool := true

namespace OpenClass

def add (c : OpenClass) (m : Member) : OpenClass :=
  { c with members := m :: c.members, isFresh := false }

def addDash (c : OpenClass) : OpenClass := { c.add (.single ⟨'-', false⟩) with isFresh := true }

def body (c : OpenClass) : ClassBody :=
  match c.left with
  | none => .union c.members.reverse
  | some (left, operator) => .combined operator left (.union c.members.reverse)

def operate (c : OpenClass) (operator : ClassOperator) : OpenClass :=
  { c with left := some (c.body, operator), members := [], isFresh := false }

end OpenClass

def openClass (isLoose : Bool) (s : Text) : OpenClass × Text :=
  match next isLoose s with
  | '^' :: s => ({ isNegated := true }, s)
  | s => ({}, s)

def atom (isLoose : Bool) : Text → Option (Atom × Text)
  | [] => none
  | '\\' :: s => escape isLoose s
  | c :: s => some (.literal ⟨c, false⟩, s)

def single : Atom → Option Member
  | .literal c => some (.single c)
  | .shorthand isNegated kind => some (.shorthand isNegated kind)
  | .anchor _ => none

def range : Atom → Atom → Option Member
  | .literal low, .literal high => if low.char ≤ high.char then some (.range low high) else none
  | _, _ => none

def startsRange : Text → Bool
  | [] => false
  | c :: _ => c != ']' && c != '-'

def member (isLoose : Bool) (s : Text) : Option (Member × Text) := do
  let (low, r) ← atom isLoose s
  match next isLoose r with
  | '-' :: r' =>
    let s := next isLoose r'
    if startsRange s then
      let (high, r) ← atom isLoose s
      some (← range low high, r)
    else some (← single low, r)
  | _ => some (← single low, r)

def operator? : Text → Option (ClassOperator × Text)
  | '&' :: '&' :: s => some (.intersection, s)
  | '-' :: '-' :: s => some (.difference, s)
  | '~' :: '~' :: s => some (.symmetricDifference, s)
  | _ => none

def readClass (isLoose : Bool) : (fuel : Nat) → (outer : List OpenClass) → (c : OpenClass) →
    Text → Option (Term × Text)
  | 0, _, _, _ => none
  | fuel + 1, outer, c, s =>
    match next isLoose s with
    | [] => none
    | x :: s =>
      if c.isFresh && x = '-' then readClass isLoose fuel outer c.addDash s
      else if c.isFresh && c.members.isEmpty && x = ']' then
        readClass isLoose fuel outer (c.add (.single ⟨x, false⟩)) s
      else if x = ']' then
        match outer with
        | [] => some (.bracketed c.isNegated c.body, s)
        | d :: outer => readClass isLoose fuel outer (d.add (.nested c.isNegated c.body)) s
      else if x = '[' then
        match namedClass? s with
        | some (m, s) => readClass isLoose fuel outer (c.add m) s
        | none =>
          let (inner, s) := openClass isLoose s
          readClass isLoose fuel (c :: outer) inner s
      else match operator? (x :: s) with
        | some (operator, s) => readClass isLoose fuel outer (c.operate operator) s
        | none => do
          let (m, s) ← member isLoose (x :: s)
          readClass isLoose fuel outer (c.add m) s

def bracketed (isLoose : Bool) (s : Text) : Option (Term × Text) :=
  let (c, r) := openClass isLoose s
  readClass isLoose (s.length + 1) [] c r

end PathSieve.Regex
