import PathSieve.Text

namespace PathSieve.Text

def decimalDigit? (c : Char) : Option Nat :=
  if '0' ≤ c && c ≤ '9' then some (c.toNat - '0'.toNat) else none

def hexDigit? (c : Char) : Option Nat :=
  if '0' ≤ c && c ≤ '9' then some (c.toNat - '0'.toNat)
  else if 'a' ≤ c && c ≤ 'f' then some (c.toNat - 'a'.toNat + 10)
  else if 'A' ≤ c && c ≤ 'F' then some (c.toNat - 'A'.toNat + 10)
  else none

def valueOf (base : Nat) (digits : List Nat) : Nat := digits.foldl (fun n d => n * base + d) 0

def ofDecimal? (s : Text) : Option Nat :=
  if s.isEmpty then none else (s.mapM decimalDigit?).map (valueOf 10)

-- The character that hexadecimal digits number; surrogates and numbers past U+10FFFF have none.
def scalar? (s : Text) : Option Char := do
  let n := valueOf 16 (← s.mapM hexDigit?)
  if h : n.isValidChar then some (Char.ofNatAux n h) else none

end PathSieve.Text
