import PathSieve.Text.Blank
import PathSieve.Text.Digits

namespace PathSieve.Command.Arithmetic

inductive Token where
  | number (n : Int)
  | operator (s : Text)
  deriving DecidableEq, Repr

def symbols : List Text :=
  ["||", "&&", "==", "!=", "<=", ">=", "<", ">", "+", "-", "*", "/", "%", "(", ")", "!"].map
    String.toList

def isNameCharacter (c : Char) : Bool := c.isAlphanum || c = '_'

def ofDigits : Text → Nat
  | '0' :: 'x' :: s | '0' :: 'X' :: s => Text.valueOf 16 (s.filterMap Text.hexDigit?)
  | '0' :: s => Text.valueOf 8 (s.filterMap Text.decimalDigit?)
  | s => Text.valueOf 10 (s.filterMap Text.decimalDigit?)

def tokens (valueOf : Text → Int) : (fuel : Nat) → Text → Option (List Token)
  | 0, _ => none
  | _ + 1, [] => some []
  | fuel + 1, c :: s =>
    if Text.isBlank c then tokens valueOf fuel s
    else
      let isMarked := c = '$'
      let name := (if isMarked then s else c :: s).takeWhile isNameCharacter
      if !name.isEmpty then do
        let value := if isMarked || !(name.head?.any Char.isDigit) then valueOf name
          else ofDigits name
        let rest := s.drop (name.length - if isMarked then 0 else 1)
        some (.number value :: (← tokens valueOf fuel rest))
      else do
        let symbol ← symbols.find? (·.isPrefixOf (c :: s))
        some (.operator symbol :: (← tokens valueOf fuel ((c :: s).drop symbol.length)))

def truth (b : Bool) : Int := if b then 1 else 0

abbrev Level := List (String × (Int → Int → Option Int))

def levels : List Level :=
  [[("||", fun a b => some (truth (a != 0 || b != 0)))],
    [("&&", fun a b => some (truth (a != 0 && b != 0)))],
    [("==", fun a b => some (truth (a = b))), ("!=", fun a b => some (truth (a != b)))],
    [("<=", fun a b => some (truth (a ≤ b))), (">=", fun a b => some (truth (b ≤ a))),
      ("<", fun a b => some (truth (a < b))), (">", fun a b => some (truth (b < a)))],
    [("+", fun a b => some (a + b)), ("-", fun a b => some (a - b))],
    [("*", fun a b => some (a * b)), ("/", fun a b => if b = 0 then none else some (a.tdiv b)),
      ("%", fun a b => if b = 0 then none else some (a.tmod b))]]

mutual

def sum : (fuel : Nat) → List Level → List Token → Option (Int × List Token)
  | 0, _, _ => none
  | fuel + 1, [], ts => operand fuel ts
  | fuel + 1, level :: higher, ts => do
    let (a, ts) ← sum fuel higher ts
    more fuel level higher a ts

def more : (fuel : Nat) → Level → List Level → Int → List Token → Option (Int × List Token)
  | 0, _, _, _, _ => none
  | fuel + 1, level, higher, a, ts =>
    match ts with
    | .operator s :: rest =>
      match level.find? (·.1.toList == s) with
      | none => some (a, ts)
      | some (_, f) => do
        let (b, rest) ← sum fuel higher rest
        more fuel level higher (← f a b) rest
    | _ => some (a, ts)

def operand : (fuel : Nat) → List Token → Option (Int × List Token)
  | 0, _ => none
  | fuel + 1, ts =>
    match ts with
    | .number n :: ts => some (n, ts)
    | .operator ['-'] :: ts => (operand fuel ts).map fun (n, r) => (-n, r)
    | .operator ['+'] :: ts => operand fuel ts
    | .operator ['!'] :: ts => (operand fuel ts).map fun (n, r) => (truth (n = 0), r)
    | .operator ['('] :: ts => do
      match ← sum fuel levels ts with
      | (n, .operator [')'] :: ts) => some (n, ts)
      | _ => none
    | _ => none

end

def evaluate (valueOf : Text → Int) (s : Text) : Option Int := do
  let ts ← tokens valueOf (s.length + 1) s
  match ← sum (20 * ts.length + 20) levels ts with
  | (n, []) => some n
  | _ => none

end PathSieve.Command.Arithmetic
