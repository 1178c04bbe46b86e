import PathSieve.Refusal
import PathSieve.Tree

/-! A world is a tree with a working directory in it. Looking a path up follows symbolic links, up
to `linkLimit` of them, needs the permission to enter each directory on the way, and keeps the
operating system's limits on the length of names. -/

namespace PathSieve

structure World where
  root : Tree
  cwd : List Bytes

namespace World

def linkLimit : Nat := 40

-- the number of bytes from which a path is too long
def pathLimit : Nat := 4096

def nameLimit : Nat := 255

def pieces (path : Bytes) : List Bytes := Text.splitOn (· == Path.slash) path

/-- A place that a path leads to: its names from the root, deepest first, its tree, and the
directories above it. -/
structure Place where
  names : List Bytes
  tree : Tree
  above : List Tree

namespace Place

def top (root : Tree) : Place := ⟨[], root, []⟩

-- the root is the directory above itself
def up : Place → Place
  | ⟨_ :: names, _, t :: above⟩ => ⟨names, t, above⟩
  | place => place

def down (place : Place) (name : Bytes) (t : Tree) : Place :=
  ⟨name :: place.names, t, place.tree :: place.above⟩

def access? (place : Place) : Option Access :=
  match place.tree with
  | .directory _ access => some access
  | _ => none

end Place

def follow (root : Tree) (links : Nat) (place : Place) : List Bytes → Except Refusal Place
  | [] => .ok place
  | piece :: todo =>
    match place.tree with
    | .directory es access =>
      if piece = [] then follow root links place todo
      else if !access.canEnter then .error .denied
      else if piece = [Path.dot] then follow root links place todo
      else if piece = [Path.dot, Path.dot] then follow root links place.up todo
      else if nameLimit < piece.length then .error .nameTooLong
      else match Tree.named? piece es with
        | none => .error .missing
        | some (.link target) =>
          match links with
          | 0 => .error .tooManyLinks
          | links + 1 =>
            let start := if Path.isAbsolute target then .top root else place
            follow root links start (pieces target ++ todo)
        | some t => follow root links (place.down piece t) todo
    | _ => .error .notDirectory
termination_by todo => (links, todo.length)

-- The working directory is open already, so that nothing above it is asked for again.
def descend (place : Place) : List Bytes → Except Refusal Place
  | [] => .ok place
  | name :: names =>
    match place.tree with
    | .directory es _ =>
      match Tree.named? name es with
      | none => .error .missing
      | some t => descend (place.down name t) names
    | _ => .error .missing

def find? (world : World) (path : Bytes) : Except Refusal Place :=
  if path.contains 0 then .error .nulInName
  else if pathLimit ≤ path.length then .error .nameTooLong
  else if path = [] then .error .missing
  else if Path.isAbsolute path then follow world.root linkLimit (.top world.root) (pieces path)
  else do
    let place ← descend (.top world.root) world.cwd
    follow world.root linkLimit place (pieces path)

def read (world : World) (path : Bytes) : Except Refusal Bytes := do
  match (← world.find? path).tree with
  | .file content _ isReadable => if isReadable then .ok content else .error .denied
  | .directory _ access => .error (if access.canList then .isDirectory else .denied)
  | .link _ => .error .missing

def hasFile (world : World) (path : Bytes) : Bool :=
  match world.find? path with
  | .ok place => place.tree.isFile
  | .error _ => false

def workingDirectory (world : World) : Bytes :=
  Path.slash :: Text.join [Path.slash] world.cwd

def enter (world : World) (place : Place) : World := { world with cwd := place.names.reverse }

end World

end PathSieve
