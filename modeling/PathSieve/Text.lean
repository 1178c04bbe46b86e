/-!
Texts are lists of characters and byte strings are lists of bytes: every operation of the library
is then a function on lists, and its laws are laws of lists.
-/
namespace PathSieve

abbrev Text := List Char

abbrev Bytes := List UInt8

namespace Text

variable {α : Type}

def dropEndWhile (p : α → Bool) (s : List α) : List α :=
  (s.reverse.dropWhile p).reverse

def splitOn (p : α → Bool) : List α → List (List α)
  | [] => [[]]
  | a :: s =>
    if p a then [] :: splitOn p s
    else match splitOn p s with
      | [] => [[a]]
      | piece :: pieces => (a :: piece) :: pieces

def join (sep : List α) : List (List α) → List α
  | [] => []
  | [s] => s
  | s :: ss => s ++ sep ++ join sep ss

def decimal (n : Nat) : Text := Nat.toDigits 10 n

def hexadecimal (n : Nat) : Text := Nat.toDigits 16 n

def ofBool (b : Bool) : Text := if b then "true".toList else "false".toList

theorem splitOn_ne_nil (p : α → Bool) (s : List α) : splitOn p s ≠ [] := by
  cases s with
  | nil => simp [splitOn]
  | cons a s =>
    rw [splitOn]
    split
    · simp
    · split <;> simp

@[simp] theorem dropEndWhile_nil (p : α → Bool) : dropEndWhile p ([] : List α) = [] := rfl

theorem dropEndWhile_append_of_all {p : α → Bool} {s t : List α} (h : ∀ a ∈ t, p a = true) :
    dropEndWhile p (s ++ t) = dropEndWhile p s := by
  have : ∀ a ∈ t.reverse, p a = true := by simpa using h
  rw [dropEndWhile, dropEndWhile, List.reverse_append, List.dropWhile_append_of_pos this]

end Text

end PathSieve
