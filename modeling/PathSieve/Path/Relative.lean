import PathSieve.Path

/-!
Relative paths. `relative path base` leads from `base` to `path` by going up from what the two do
not share; where no such path can be told from the spelling alone, `path` itself is the answer.
`denotation` is what a path means when no symbolic link is involved.
-/
namespace PathSieve.Path

/-- The components that lead from `base` to `path`. `moved` holds once a component has been
written; until then equal components are shared. A `..` left in `base` cannot be undone. -/
def steps? : (moved : Bool) → (path base : List Component) → Option (List Component)
  | _, [], [] => some []
  | _, a :: as, [] => some (a :: as)
  | _, [], _ :: bs => (steps? true [] bs).map (.parent :: ·)
  | moved, a :: as, b :: bs =>
    if !moved && a == b then steps? false as bs
    else if b = .current then (steps? true as bs).map (a :: ·)
    else if b = .parent then none
    else some (.parent :: bs.map (fun _ => .parent) ++ a :: as)

def relative (path base : Bytes) : Bytes :=
  if isAbsolute path != isAbsolute base then path
  else match steps? false (components path) (components base) with
    | some cs => assemble cs
    | none => path

def descend : List Component → Component → List Component
  | walked, .root => walked
  | walked, .current => walked
  | .name _ :: walked, .parent => walked
  | [.root], .parent => [.root]
  | walked, c => c :: walked

def denotation (path : Bytes) : List Component :=
  (components path).foldl descend (if isAbsolute path then [.root] else [])

end PathSieve.Path
