import PathSieve.Text

namespace PathSieve.Line

variable {α : Type} [DecidableEq α]

def split (newline : α) : List α → List (List α)
  | [] => []
  | a :: s =>
    if a = newline then [] :: split newline s
    else match split newline s with
      | [] => [[a]]
      | l :: ls => (a :: l) :: ls

def unsplit (newline : α) (ls : List (List α)) : List α := ls.flatMap (· ++ [newline])

-- Drops a carriage return that stands directly before a newline.
def dropReturns : Text → Text
  | '\r' :: '\n' :: s => '\n' :: dropReturns s
  | c :: s => c :: dropReturns s
  | [] => []

theorem split_append_newline {newline : α} {l : List α} (h : newline ∉ l) (s : List α) :
    split newline (l ++ newline :: s) = l :: split newline s := by
  induction l with
  | nil => simp [split]
  | cons a l ih =>
    have ha : a ≠ newline := fun e => h (e ▸ List.mem_cons_self)
    have hl : newline ∉ l := fun m => h (List.mem_cons_of_mem a m)
    simp [split, ha, ih hl]

theorem split_unsplit {newline : α} {ls : List (List α)} (h : ∀ l ∈ ls, newline ∉ l) :
    split newline (unsplit newline ls) = ls := by
  induction ls with
  | nil => rfl
  | cons l ls ih =>
    have : unsplit newline (l :: ls) = l ++ newline :: unsplit newline ls := by simp [unsplit]
    rw [this, split_append_newline (h l List.mem_cons_self),
      ih fun l' hl' => h l' (List.mem_cons_of_mem l hl')]

end PathSieve.Line
