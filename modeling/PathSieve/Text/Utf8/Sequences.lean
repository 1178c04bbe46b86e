import PathSieve.Text.CharSet

/-!
The byte sequences of a set of characters. The encodings of a range of characters fall into few
shapes, each of which is a range for its first byte, one for its second byte, and so on.
-/
namespace PathSieve.Utf8

abbrev Shape := List (Nat × Nat)

/-- The characters whose encodings are equally long: the number of bytes after the first one, what
the first byte has besides its bits of the character, and the least and the greatest of them. The
surrogates are left out. -/
structure Zone where
  tails : Nat
  mark : Nat
  low : Nat
  high : Nat

def zones : List Zone :=
  [⟨0, 0, 0, 0x7F⟩, ⟨1, 0xC0, 0x80, 0x7FF⟩, ⟨2, 0xE0, 0x800, 0xD7FF⟩, ⟨2, 0xE0, 0xE000, 0xFFFF⟩,
    ⟨3, 0xF0, 0x10000, 0x10FFFF⟩]

def tailMark : Nat := 0x80

def shapes (mark : Nat) : (tails low high : Nat) → List Shape
  | 0, low, high => [[(mark + low, mark + high)]]
  | tails + 1, low, high =>
    let unit := 64 ^ (tails + 1)
    let first := low / unit
    let last := high / unit
    let under (digit : Nat) (shape : Shape) : Shape := (mark + digit, mark + digit) :: shape
    if first = last then (shapes tailMark tails (low % unit) (high % unit)).map (under first)
    else
      let startsWhole := low % unit = 0
      let endsWhole := high % unit = unit - 1
      let lowest := if startsWhole then first else first + 1
      let highest := if endsWhole then last else last - 1
      let whole := (mark + lowest, mark + highest) ::
        List.replicate (tails + 1) (tailMark, tailMark + 63)
      (if startsWhole then []
        else (shapes tailMark tails (low % unit) (unit - 1)).map (under first)) ++
      (if lowest ≤ highest then [whole] else []) ++
      (if endsWhole then [] else (shapes tailMark tails 0 (high % unit)).map (under last))

def Zone.shapes (zone : Zone) (range : Nat × Nat) : List Shape :=
  let low := max zone.low range.1
  let high := min zone.high range.2
  if low ≤ high then Utf8.shapes zone.mark zone.tails low high else []

def shapesOf (set : CharSet) : List Shape :=
  set.ranges.flatMap fun range => zones.flatMap (·.shapes range)

end PathSieve.Utf8
