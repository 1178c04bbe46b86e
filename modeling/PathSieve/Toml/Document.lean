import PathSieve.Toml.Statement

/-!
Documents: the table that a whole text makes. `parse?` gives none for a text that is no TOML, for
one that defines a key twice, and for one that nests too deep.
-/
namespace PathSieve.Toml

structure Draft where
  root : Node
  heading : List Key

namespace Draft

def start (s : Text) : Draft := ⟨.table (some (.between s s)) .header [], []⟩

def add? (draft : Draft) : Statement → Option Draft
  | .blank => some draft
  | .header span path key => do
    let root ← draft.root.edit? .header (Node.open? key span) path
    some ⟨root, path ++ [key]⟩
  | .nextHeader span path key => do
    let root ← draft.root.edit? .header (Node.openNext? key span) path
    some ⟨root, path ++ [key]⟩
  | .assignment path key value => do
    let assign (table : Node) := (table.assign? path key value).map (Node.extend value)
    let root ← draft.root.edit? .header assign draft.heading
    some { draft with root }

end Draft

def statements? : (fuel : Nat) → Text → Option (List Statement)
  | _, [] => some []
  | 0, _ :: _ => none
  | fuel + 1, s => do
    let (statement, r) ← statement? s
    let statements ← statements? fuel r
    some (statement :: statements)

def dropMark : Text → Text
  | '\uFEFF' :: s => s
  | s => s

def parse? (s : Text) : Option Node := do
  let statements ← statements? s.length (dropMark s)
  let draft ← statements.foldlM Draft.add? (.start s)
  some draft.root

end PathSieve.Toml
