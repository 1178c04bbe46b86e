import PathSieve.Binary64

/-!
The shortest decimal that reads back as a given number. The numbers that round to it form an
interval, whose ends belong to it when the mantissa is even. On the decimal grids of one digit, two
digits and so on, the first with a point in the interval wins, and there the point nearest to the
number, or the upper one of two that are equally near.
-/
namespace PathSieve.Binary64

structure Interval where
  low : Nat
  value : Nat
  high : Nat
  den : Nat
  closed : Bool

def interval (mantissa : Nat) (exponent : Int) : Interval :=
  let unit := twoTo exponent.toNat
  let value := 4 * mantissa * unit
  let below := if mantissa = twoTo 52 && leastExponent < exponent then unit else 2 * unit
  ⟨value - below, value, value + 2 * unit, 4 * twoTo (-exponent).toNat, mantissa % 2 = 0⟩

namespace Interval

variable (i : Interval)

def order : Int :=
  if i.den ≤ i.value then (Text.decimal (i.value / i.den)).length - 1
  else
    let size := (Text.decimal (i.den / i.value)).length
    if i.den ≤ i.value * tenTo (size - 1) then 1 - (size : Int) else -(size : Int)

def align (power : Int) (point : Nat) : Nat × Nat :=
  (point * tenTo power.toNat * i.den, tenTo (-power).toNat)

def holds (power : Int) (point : Nat) : Bool :=
  let (p, f) := i.align power point
  if i.closed then i.low * f ≤ p && p ≤ i.high * f else i.low * f < p && p < i.high * f

def distance (power : Int) (point : Nat) : Nat :=
  let (p, f) := i.align power point
  (p - i.value * f) + (i.value * f - p)

def floorPoint (power : Int) : Nat :=
  i.value * tenTo (-power).toNat / (i.den * tenTo power.toNat)

def pointOn? (power : Int) : Option Nat :=
  let a := i.floorPoint power
  let b := a + 1
  match i.holds power a, i.holds power b with
  | true, true => if i.distance power b ≤ i.distance power a then some b else some a
  | true, false => some a
  | false, true => some b
  | false, false => none

-- The first hit on the grids of `count` digits and more; 17 digits always suffice.
def search : (tries : Nat) → (count : Nat) → Nat × Int
  | 0, count => (i.floorPoint (i.order + 1 - count), i.order + 1 - count)
  | tries + 1, count =>
    match i.pointOn? (i.order + 1 - count) with
    | some point => (point, i.order + 1 - count)
    | none => search tries (count + 1)

end Interval

def shortest (mantissa : Nat) (exponent : Int) : Nat × Int :=
  if mantissa = 0 then (0, 0) else (interval mantissa exponent).search 17 1

def positional (digits : Nat) (power : Int) : Text :=
  let s := Text.decimal digits
  if 0 ≤ power then (if digits = 0 then s else s ++ List.replicate power.toNat '0')
  else
    let places := (-power).toNat
    let padded := List.replicate (places + 1 - s.length) '0' ++ s
    let cut := padded.length - places
    match Text.dropEndWhile (· == '0') (padded.drop cut) with
    | [] => padded.take cut
    | fraction => padded.take cut ++ '.' :: fraction

def text : Binary64 → Text
  | nan => "NaN".toList
  | infinite negative => (if negative then ['-'] else []) ++ "inf".toList
  | finite negative mantissa exponent =>
    let (digits, power) := shortest mantissa exponent
    let s := positional digits power
    let s := if s.contains '.' then s else s ++ ".0".toList
    (if negative then ['-'] else []) ++ s

end PathSieve.Binary64
