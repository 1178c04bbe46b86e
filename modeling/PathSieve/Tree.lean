import PathSieve.Path

/-! File trees. A directory holds its entries in the order in which it yields them; `sorted` puts
every directory of a tree into the order of the names' bytes. -/

namespace PathSieve

structure Access where
  canList : Bool
  canEnter : Bool
  deriving DecidableEq, Repr

def Access.free : Access := ⟨true, true⟩

inductive Tree where
  | file (content : Bytes) (isExecutable isReadable : Bool)
  | link (target : Bytes)
  | directory (entries : List (Bytes × Tree)) (access : Access)

namespace Tree

def empty : Tree := directory [] .free

def isDirectory : Tree → Bool
  | directory _ _ => true
  | _ => false

def isFile : Tree → Bool
  | file _ _ _ => true
  | _ => false

def named? (name : Bytes) (es : List (Bytes × Tree)) : Option Tree :=
  (es.find? fun e => e.1 == name).map (·.2)

def comesBefore (a b : Bytes × Tree) : Bool := a.1 ≤ b.1

mutual

def sorted : Tree → Tree
  | directory es access => directory ((sortedEntries es).mergeSort comesBefore) access
  | file content isExecutable isReadable => file content isExecutable isReadable
  | link target => link target

def sortedEntries : List (Bytes × Tree) → List (Bytes × Tree)
  | [] => []
  | (name, t) :: es => (name, t.sorted) :: sortedEntries es

end

def alter (f : Option Tree → Tree) (name : Bytes) : List (Bytes × Tree) → List (Bytes × Tree)
  | [] => [(name, f none)]
  | e :: es => if e.1 == name then (name, f (some e.2)) :: es else e :: alter f name es

-- A directory that is already there keeps its entries, and those missing on the way are made.
def put (leaf : Tree) : List Bytes → Tree → Tree
  | [], t => if leaf.isDirectory && t.isDirectory then t else leaf
  | name :: names, directory es access =>
    directory (alter (fun t => put leaf names (t.getD empty)) name es) access
  | name :: names, _ => directory [(name, put leaf names empty)] .free

end Tree

end PathSieve
