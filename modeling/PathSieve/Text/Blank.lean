import PathSieve.Text

/-!
Blank characters: the code points of the Unicode property White_Space. ASCII alone would not do,
since an ideographic space or a no-break space makes a line blank too.
-/
namespace PathSieve.Text

def isBlank (c : Char) : Bool :=
  let n := c.val.toNat
  (0x09 ≤ n && n ≤ 0x0D) || n == 0x20 || n == 0x85 || n == 0xA0 || n == 0x1680 ||
    (0x2000 ≤ n && n ≤ 0x200A) || n == 0x2028 || n == 0x2029 || n == 0x202F || n == 0x205F ||
    n == 0x3000

def trim (s : Text) : Text := dropEndWhile isBlank (s.dropWhile isBlank)

end PathSieve.Text
