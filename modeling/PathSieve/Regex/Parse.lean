import PathSieve.Regex.Bracket
import PathSieve.Text.Alphabetic
import PathSieve.Text.Numeric

/-!
Reading regular expressions. The groups that are open are kept on a stack, so a text is read from
left to right in one pass; a text that nests too deep is refused in the end.
-/
namespace PathSieve.Regex

def isNameCharacter (isFirst : Bool) (c : Char) : Bool :=
  c = '_' || Text.isAlphabetic c || (!isFirst && (Text.isNumeric c || c ∈ ['.', '[', ']']))

def isName : Text → Bool
  | [] => false
  | c :: s => isNameCharacter true c && s.all (isNameCharacter false)

def modeLetters : List (Char × Mode) :=
  [('i', .anyCase), ('m', .lines), ('s', .dotTakesAll), ('U', .swapsGreed), ('u', .unicode),
    ('R', .carriageReturns), ('x', .loose)]

def mode? (c : Char) : Option Mode := (modeLetters.find? (·.1 == c)).map (·.2)

def switch? (s : Text) : Option Switch := do
  let (on, off) ← match Text.splitOn (· == '-') s with
    | [on] => some (on, [])
    | [on, off] => if off.isEmpty then none else some (on, off)
    | _ => none
  let switch : Switch := ⟨← on.mapM mode?, ← off.mapM mode?⟩
  if (switch.on ++ switch.off).Nodup then some switch else none

inductive Opening where
  | group (kind : GroupKind) (name : Option Text)
  | switch (switch : Switch)

def namedGroup (s : Text) : Option (Opening × Text) :=
  match s.dropWhile (· != '>') with
  | _ :: r =>
    let name := s.takeWhile (· != '>')
    if isName name then some (.group .captured (some name), r) else none
  | [] => none

def switching (s : Text) : Option (Opening × Text) := do
  let isEnd (c : Char) : Bool := c = ':' || c = ')'
  let switch ← switch? (s.takeWhile (!isEnd ·))
  match s.dropWhile (!isEnd ·) with
  | ':' :: r => some (.group (.switching switch) none, r)
  | _ :: r => if switch.on.isEmpty && switch.off.isEmpty then none else some (.switch switch, r)
  | [] => none

def opening : Text → Option (Opening × Text)
  | '?' :: '=' :: _ | '?' :: '!' :: _ | '?' :: '<' :: '=' :: _ | '?' :: '<' :: '!' :: _ => none
  | '?' :: 'P' :: '<' :: s | '?' :: '<' :: s => namedGroup s
  | '?' :: s => switching s
  | s => some (.group .captured none, s)

def countLimit : Nat := 4294967296

def count (s : Text) : Option Nat := (Text.ofDecimal? (Text.trim s)).filter (· < countLimit)

def bounds (s : Text) : Option (Nat × Option Nat) :=
  match Text.splitOn (· == ',') s with
  | [n] => do
    let least ← count n
    some (least, some least)
  | [n, []] => do some (← count n, none)
  | [n, m] => do
    let least ← count n
    let most ← count m
    if least ≤ most then some (least, some most) else none
  | _ => none

structure Body where
  branches : List Term := []
  parts : List Term := []

namespace Body

def add (b : Body) (t : Term) : Body := { b with parts := t :: b.parts }

def branch (b : Body) : Body := ⟨.ofParts b.parts.reverse :: b.branches, []⟩

def term (b : Body) : Term := .ofBranches b.branch.branches.reverse

def repeat? (b : Body) (least : Nat) (most : Option Nat) : Option Body :=
  match b.parts with
  | t :: ts =>
    if t.isRepeatable then some { b with parts := .repetition t least most :: ts } else none
  | [] => none

end Body

structure OpenGroup where
  kind : GroupKind
  outer : Body
  isLoose : Bool

structure Reading where
  isLoose : Bool := false
  names : List Text := []
  groups : List OpenGroup := []
  body : Body := {}

namespace Reading

def add (r : Reading) (t : Term) : Reading := { r with body := r.body.add t }

def repeat? (r : Reading) (least : Nat) (most : Option Nat) : Option Reading :=
  (r.body.repeat? least most).map fun body => { r with body }

def isLooseAfter (r : Reading) (switch : Switch) : Bool :=
  .loose ∈ switch.on || (r.isLoose && .loose ∉ switch.off)

def openGroup (r : Reading) (kind : GroupKind) : Reading :=
  let isLoose := match kind with
    | .captured => r.isLoose
    | .switching switch => r.isLooseAfter switch
  { r with isLoose, groups := ⟨kind, r.body, r.isLoose⟩ :: r.groups, body := {} }

def open? (r : Reading) : Opening → Option Reading
  | .switch switch => some { r.add (.switch switch) with isLoose := r.isLooseAfter switch }
  | .group kind none => some (r.openGroup kind)
  | .group kind (some name) =>
    if r.names.contains name then none else some { r.openGroup kind with names := name :: r.names }

def close? (r : Reading) : Option Reading :=
  match r.groups with
  | [] => none
  | g :: groups =>
    some { r with
      isLoose := g.isLoose
      groups
      body := g.outer.add (.group g.kind r.body.term) }

def atom (r : Reading) : Atom → Reading
  | .literal c => r.add (.literal c)
  | .anchor a => r.add (.anchor a)
  | .shorthand isNegated kind => r.add (.shorthand isNegated kind)

def operators : List (Char × Nat × Option Nat) :=
  [('?', 0, some 1), ('*', 0, none), ('+', 1, none)]

def dropPreference : Text → Text
  | '?' :: s => s
  | s => s

def step (r : Reading) (c : Char) (s : Text) : Option (Reading × Text) :=
  match operators.find? (·.1 == c) with
  | some (_, least, most) => (r.repeat? least most).map (·, dropPreference s)
  | none =>
    if c = '(' then do
      let (opened, s) ← opening (next r.isLoose s)
      some (← r.open? opened, s)
    else if c = ')' then r.close?.map (·, s)
    else if c = '|' then some ({ r with body := r.body.branch }, s)
    else if c = '[' then (bracketed r.isLoose s).map fun (t, s) => (r.add t, s)
    else if c = '\x7b' then do
      let (inside, s) ← toBrace r.isLoose false s
      let (least, most) ← bounds inside
      some (← r.repeat? least most, dropPreference (next r.isLoose s))
    else if c = '\\' then (escape r.isLoose s).map fun (a, s) => (r.atom a, s)
    else if c = '.' then some (r.add .dot, s)
    else if c = '^' then some (r.add (.anchor .lineStart), s)
    else if c = '$' then some (r.add (.anchor .lineEnd), s)
    else some (r.add (.literal ⟨c, false⟩), s)

def run : (fuel : Nat) → Reading → Text → Option Term
  | 0, _, _ => none
  | fuel + 1, r, s =>
    match next r.isLoose s with
    | [] => if r.groups.isEmpty then some r.body.term else none
    | c :: s => do
      let (r, s) ← r.step c s
      run fuel r s

end Reading

def depthLimit : Nat := 250

def parse (s : Text) : Option Term :=
  ((Reading.run (s.length + 1) {} s)).filter (·.depth ≤ depthLimit)

end PathSieve.Regex
