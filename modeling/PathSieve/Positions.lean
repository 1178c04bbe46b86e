import PathSieve.Text

/-!
Sets of positions. A subject of `n` letters has `n + 1` positions, and a set of them is a list of
`n + 1` flags. An expression turns the set of positions where it may start into the set where it may
end, so that matching never tries one way after another.
-/
namespace PathSieve.Positions

variable {α : Type}

def closure : Bool → List Bool → List Bool
  | _, [] => []
  | seen, v :: vs => (seen || v) :: closure (seen || v) vs

def advance (p : α → Bool) (subject : List α) (v : List Bool) : List Bool :=
  false :: List.zipWith (fun a reached => reached && p a) subject v

def union (v w : List Bool) : List Bool := List.zipWith (· || ·) v w

def advanceAll [BEq α] (word : List α) (subject : List α) (v : List Bool) : List Bool :=
  word.foldl (fun v a => advance (· == a) subject v) v

def start (subject : List α) : List Bool := true :: subject.map fun _ => false

def everywhere (subject : List α) : List Bool := true :: subject.map fun _ => true

theorem length_closure (seen : Bool) (v : List Bool) : (closure seen v).length = v.length := by
  induction v generalizing seen with
  | nil => rfl
  | cons b v ih => simp [closure, ih]

theorem length_start (subject : List α) : (start subject).length = subject.length + 1 := by
  simp [start]

theorem length_advance {p : α → Bool} {subject : List α} {v : List Bool}
    (h : v.length = subject.length + 1) : (advance p subject v).length = subject.length + 1 := by
  simp [advance, h]

theorem length_union {v w : List Bool} (h : v.length = w.length) :
    (union v w).length = w.length := by
  simp [union, h]

end PathSieve.Positions
