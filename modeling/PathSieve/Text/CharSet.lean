import PathSieve.Text

/-!
Sets of characters, as ranges of code points. The ranges of a set stand in ascending order with gaps
between them, which `insert` and `complement` keep, so a set has one form.
-/
namespace PathSieve

structure CharSet where
  ranges : List (Nat × Nat)
  deriving DecidableEq, Repr

namespace CharSet

def empty : CharSet := ⟨[]⟩

def greatest : Nat := 0x10FFFF

def contains (set : CharSet) (c : Char) : Bool :=
  set.ranges.any fun (low, high) => low ≤ c.toNat && c.toNat ≤ high

def insertRange (range : Nat × Nat) : List (Nat × Nat) → List (Nat × Nat)
  | [] => [range]
  | r :: rs =>
    if range.2 + 1 < r.1 then range :: r :: rs
    else if r.2 + 1 < range.1 then r :: insertRange range rs
    else insertRange (min range.1 r.1, max range.2 r.2) rs

def ofRanges (ranges : List (Nat × Nat)) : CharSet := ⟨ranges.foldr insertRange []⟩

def ofChar (c : Char) : CharSet := ⟨[(c.toNat, c.toNat)]⟩

def union (a b : CharSet) : CharSet := ofRanges (a.ranges ++ b.ranges)

def gaps (least : Nat) : List (Nat × Nat) → List (Nat × Nat)
  | [] => if least ≤ greatest then [(least, greatest)] else []
  | (low, high) :: rs => (if least < low then [(least, low - 1)] else []) ++ gaps (high + 1) rs

def complement (a : CharSet) : CharSet := ⟨gaps 0 a.ranges⟩

def inter (a b : CharSet) : CharSet := (a.complement.union b.complement).complement

def diff (a b : CharSet) : CharSet := a.inter b.complement

def symmDiff (a b : CharSet) : CharSet := (a.diff b).union (b.diff a)

def single? (a : CharSet) : Option Char :=
  match a.ranges with
  | [(low, high)] => if low = high then some (Char.ofNat low) else none
  | _ => none

def isAscii (a : CharSet) : Bool := a.ranges.all (·.2 < 0x80)

def withBothCases (a : CharSet) : CharSet :=
  let shifted (low high target : Nat) : List (Nat × Nat) :=
    (a.inter ⟨[(low, high)]⟩).ranges.map fun (l, h) => (l + target - low, h + target - low)
  ofRanges (a.ranges ++ shifted 0x41 0x5A 0x61 ++ shifted 0x61 0x7A 0x41)

end CharSet

end PathSieve
