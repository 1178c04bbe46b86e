import PathSieve.Toml.Value

namespace PathSieve.Toml

inductive Statement where
  | blank
  | header (span : Span) (path : List Key) (key : Key)
  | nextHeader (span : Span) (path : List Key) (key : Key)
  | assignment (path : List Key) (key : Key) (value : Node)

def dropComment : Text → Text
  | '#' :: s => s.dropWhile isText
  | s => s

def lineEnd? (s : Text) : Option Text :=
  match dropComment (dropSpaces s) with
  | [] => some []
  | '\n' :: r => some r
  | '\r' :: '\n' :: r => some r
  | _ => none

def header? (s : Text) : Reader Statement
  | '[' :: r => do
    let ((path, key), r) ← dottedKey? r
    let r ← char? ']' r
    let r ← char? ']' r
    some (.nextHeader (.between s r) path key, r)
  | r => do
    let ((path, key), r) ← dottedKey? r
    let r ← char? ']' r
    some (.header (.between s r) path key, r)

def assignment? (s : Text) : Option (Statement × Text) := do
  let ((path, key), r) ← dottedKey? s
  let r ← char? '=' r
  let (value, r) ← value? depthLimit (dropSpaces r)
  some (.assignment path key value, r)

def statement? (s : Text) : Option (Statement × Text) := do
  let s := dropSpaces s
  let (statement, r) ← match s with
    | [] => some (.blank, s)
    | '#' :: _ => some (.blank, s)
    | '\n' :: _ => some (.blank, s)
    | '\r' :: _ => some (.blank, s)
    | '[' :: r => header? s r
    | _ => assignment? s
  let r ← lineEnd? r
  some (statement, r)

end PathSieve.Toml
