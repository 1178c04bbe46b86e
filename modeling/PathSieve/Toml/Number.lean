import PathSieve.Toml.Node

namespace PathSieve.Toml

def isDigit (c : Char) : Bool := '0' ≤ c && c ≤ '9'

def isHexDigit (c : Char) : Bool := isDigit c || ('a' ≤ c && c ≤ 'f') || ('A' ≤ c && c ≤ 'F')

def digitValue (c : Char) : Nat :=
  if isDigit c then c.toNat - '0'.toNat
  else if 'a' ≤ c then c.toNat - 'a'.toNat + 10
  else c.toNat - 'A'.toNat + 10

def valueIn (base : Nat) (digits : List Char) : Nat :=
  digits.foldl (fun n c => n * base + digitValue c) 0

def moreDigits (p : Char → Bool) : Text → List Char × Text
  | '_' :: c :: s =>
    if p c then (c :: (moreDigits p s).1, (moreDigits p s).2) else ([], '_' :: c :: s)
  | c :: s => if p c then (c :: (moreDigits p s).1, (moreDigits p s).2) else ([], c :: s)
  | [] => ([], [])

def digits? (p : Char → Bool) : Reader (List Char)
  | c :: s => if p c then some (c :: (moreDigits p s).1, (moreDigits p s).2) else none
  | [] => none

def sign : Text → Bool × Text
  | '-' :: s => (true, s)
  | '+' :: s => (false, s)
  | s => (false, s)

def whole? : Reader (List Char)
  | '0' :: s => some (['0'], s)
  | s => digits? isDigit s

def exponent? : Reader Int
  | c :: s =>
    if c = 'e' || c = 'E' then do
      let (negative, s) := sign s
      let (ds, r) ← digits? isDigit s
      let n : Int := valueIn 10 ds
      some (if negative then -n else n, r)
    else none
  | [] => none

def special? (negative : Bool) : Reader Binary64
  | 'i' :: 'n' :: 'f' :: s => some (.infinite negative, s)
  | 'n' :: 'a' :: 'n' :: s => some (.nan, s)
  | _ => none

-- A number with a fraction, an exponent or both. One past the greatest number is refused, while
-- one below the least is minus infinity.
def fractional? (s : Text) : Option (Binary64 × Text) := do
  let (negative, s) := sign s
  let (ds, r) ← whole? s
  let (fs, r) ← match r with
    | '.' :: r => digits? isDigit r
    | r => some ([], r)
  let (e, r) ← match exponent? r with
    | some (e, r) => some (e, r)
    | none => if fs.isEmpty then none else some (0, r)
  let x := Binary64.ofDecimal negative (valueIn 10 (ds ++ fs)) (e - fs.length)
  if x = .infinite false then none else some (x, r)

def float? (s : Text) : Option (Binary64 × Text) :=
  match fractional? s with
  | some x => some x
  | none => special? (sign s).1 (sign s).2

def inRange (n : Int) : Bool := -9223372036854775808 ≤ n && n ≤ 9223372036854775807

def integer? (s : Text) : Option (Int × Text) := do
  let (n, r) ← match s with
    | '0' :: 'x' :: s => (digits? isHexDigit s).map fun (ds, r) => ((valueIn 16 ds : Int), r)
    | '0' :: 'o' :: s =>
      (digits? (fun c => '0' ≤ c && c ≤ '7') s).map fun (ds, r) => ((valueIn 8 ds : Int), r)
    | '0' :: 'b' :: s =>
      (digits? (fun c => c = '0' || c = '1') s).map fun (ds, r) => ((valueIn 2 ds : Int), r)
    | s =>
      (whole? (sign s).2).map fun (ds, r) =>
        (if (sign s).1 then -(valueIn 10 ds : Int) else valueIn 10 ds, r)
  if inRange n then some (n, r) else none

end PathSieve.Toml
