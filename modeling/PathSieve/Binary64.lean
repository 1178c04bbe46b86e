import PathSieve.Text

/-!
Binary floating point of 64 bits, in exact arithmetic: a finite number is `mantissa · 2 ^ exponent`
with a sign. `ofDecimal` is the number nearest to a decimal one, a tie going to the even mantissa.
-/
namespace PathSieve

inductive Binary64 where
  | finite (negative : Bool) (mantissa : Nat) (exponent : Int)
  | infinite (negative : Bool)
  | nan
  deriving DecidableEq, Repr

namespace Binary64

def twoTo (n : Nat) : Nat := Nat.pow 2 n

def tenTo (n : Nat) : Nat := Nat.pow 10 n

def leastExponent : Int := -1074

def greatestExponent : Int := 971

def roundHalfEven (num den : Nat) : Nat :=
  let whole := num / den
  let twice := 2 * (num % den)
  if den < twice then whole + 1
  else if twice = den then whole + whole % 2
  else whole

def scale (num den : Nat) (exponent : Int) : Nat × Nat :=
  if exponent < 0 then (num * twoTo (-exponent).toNat, den) else (num, den * twoTo exponent.toNat)

def exponentFor (num den : Nat) : Int :=
  let guess : Int := (Nat.log2 num : Int) - Nat.log2 den - 52
  let (n, d) := scale num den guess
  max leastExponent (if n / d < twoTo 52 then guess - 1 else guess)

def ofFraction? (num den : Nat) : Option (Nat × Int) :=
  let exponent := exponentFor num den
  let (n, d) := scale num den exponent
  let mantissa := roundHalfEven n d
  let (mantissa, exponent) :=
    if mantissa = twoTo 53 then (twoTo 52, exponent + 1) else (mantissa, exponent)
  if exponent ≤ greatestExponent then some (mantissa, exponent) else none

def ofDecimal (negative : Bool) (digits : Nat) (power : Int) : Binary64 :=
  let size : Int := (Text.decimal digits).length + power
  if digits = 0 || size < -330 then finite negative 0 leastExponent
  else if 310 < size then infinite negative
  else
    let fraction :=
      if power < 0 then ofFraction? digits (tenTo (-power).toNat)
      else ofFraction? (digits * tenTo power.toNat) 1
    match fraction with
    | some (mantissa, exponent) => finite negative mantissa exponent
    | none => infinite negative

end Binary64

end PathSieve
