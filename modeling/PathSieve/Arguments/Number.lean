import PathSieve.Text

namespace PathSieve.Arguments

inductive NumberFault where
  | empty
  | invalidDigit
  | tooLarge
  deriving DecidableEq, Repr

def NumberFault.message : NumberFault → Text
  | empty => "cannot parse integer from empty string".toList
  | invalidDigit => "invalid digit found in string".toList
  | tooLarge => "number too large to fit in target type".toList

def isDigit (c : Char) : Bool := '0' ≤ c && c ≤ '9'

def numberLimit : Nat := 18446744073709551616

def digits (n : Nat) : Text → Except NumberFault Nat
  | [] => .ok n
  | c :: s =>
    if !isDigit c then .error .invalidDigit
    else if numberLimit ≤ n * 10 + (c.toNat - '0'.toNat) then .error .tooLarge
    else digits (n * 10 + (c.toNat - '0'.toNat)) s

def number : Text → Except NumberFault Nat
  | [] => .error .empty
  | ['+'] => .error .invalidDigit
  | '+' :: s => digits 0 s
  | s => digits 0 s

end PathSieve.Arguments
