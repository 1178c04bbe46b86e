import PathSieve.Refusal
import PathSieve.Tree

/-! Visits: the entries of a tree in the order of a walk, each directory directly before what it
holds. -/

namespace PathSieve.Tree

structure Visit where
  path : Bytes
  isDirectory : Bool
  -- Why this directory, which lies within the depth, cannot be read.
  refusal : Option Refusal
  deriving DecidableEq, Repr

-- A path that is too long is refused before any permission is asked for.
def refusal? (fits isReached : Bool) (access : Access) : Option Refusal :=
  if !fits then some .nameTooLong
  else if isReached && access.canList then none
  else some .denied

mutual

/-- Walks `depth` levels down. `fits` tells which paths are short enough to be opened, and
`isReached` whether every directory above may be entered. -/
def visits (fits : Bytes → Bool) (isReached : Bool) (depth : Nat) (path : Bytes) :
    Tree → List Visit
  | directory es access =>
    if depth = 0 then [⟨path, true, none⟩]
    else match refusal? (fits path) isReached access with
      | some why => [⟨path, true, some why⟩]
      | none =>
        ⟨path, true, none⟩ :: visitsOf fits (isReached && access.canEnter) (depth - 1) path es
  | _ => [⟨path, false, none⟩]

def visitsOf (fits : Bytes → Bool) (isReached : Bool) (depth : Nat) (path : Bytes) :
    List (Bytes × Tree) → List Visit
  | [] => []
  | (name, t) :: es =>
    visits fits isReached depth (Path.join path name) t ++ visitsOf fits isReached depth path es

end

end PathSieve.Tree
