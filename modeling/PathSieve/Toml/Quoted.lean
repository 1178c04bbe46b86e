import PathSieve.Text.Digits
import PathSieve.Toml.Node

namespace PathSieve.Toml

def isSpace (c : Char) : Bool := c = ' ' || c = '\t'

def isText (c : Char) : Bool := c = '\t' || (' ' ≤ c && c != '\x7f')

def shortEscape? : Char → Option Char
  | 'b' => some '\x08'
  | 't' => some '\t'
  | 'n' => some '\n'
  | 'f' => some '\x0c'
  | 'r' => some '\r'
  | '"' => some '"'
  | '\\' => some '\\'
  | _ => none

def basic? : Reader Text
  | [] => none
  | '"' :: s => some ([], s)
  | '\\' :: 'u' :: a :: b :: c :: d :: s => do
    let x ← Text.scalar? [a, b, c, d]
    let (t, r) ← basic? s
    some (x :: t, r)
  | '\\' :: 'U' :: a :: b :: c :: d :: e :: f :: g :: h :: s => do
    let x ← Text.scalar? [a, b, c, d, e, f, g, h]
    let (t, r) ← basic? s
    some (x :: t, r)
  | '\\' :: e :: s => do
    let x ← shortEscape? e
    let (t, r) ← basic? s
    some (x :: t, r)
  | c :: s =>
    if isText c && c != '\\' then (basic? s).map fun (t, r) => (c :: t, r) else none

def literal? : Reader Text
  | [] => none
  | '\'' :: s => some ([], s)
  | c :: s => if isText c then (literal? s).map fun (t, r) => (c :: t, r) else none

-- A backslash at the end of a line takes the blanks and newlines after it along.
inductive Fold where
  | none
  | pending
  | skipping

def multilineBasic? : Fold → Reader Text
  | .pending, c :: s =>
    if isSpace c then multilineBasic? .pending s
    else if c = '\n' then multilineBasic? .skipping s
    else if c = '\r' && s.head? = some '\n' then multilineBasic? .skipping s
    else none
  | .skipping, ' ' :: s => multilineBasic? .skipping s
  | .skipping, '\t' :: s => multilineBasic? .skipping s
  | .skipping, '\n' :: s => multilineBasic? .skipping s
  | .skipping, '\r' :: '\n' :: s => multilineBasic? .skipping s
  | _, '"' :: '"' :: '"' :: '"' :: '"' :: s => some (['"', '"'], s)
  | _, '"' :: '"' :: '"' :: '"' :: s => some (['"'], s)
  | _, '"' :: '"' :: '"' :: s => some ([], s)
  | _, '\\' :: 'u' :: a :: b :: c :: d :: s => do
    let x ← Text.scalar? [a, b, c, d]
    let (t, r) ← multilineBasic? .none s
    some (x :: t, r)
  | _, '\\' :: 'U' :: a :: b :: c :: d :: e :: f :: g :: h :: s => do
    let x ← Text.scalar? [a, b, c, d, e, f, g, h]
    let (t, r) ← multilineBasic? .none s
    some (x :: t, r)
  | _, '\\' :: e :: s =>
    match shortEscape? e with
    | some x => (multilineBasic? .none s).map fun (t, r) => (x :: t, r)
    | none =>
      if isSpace e then multilineBasic? .pending s
      else if e = '\n' || (e = '\r' && s.head? = some '\n') then multilineBasic? .skipping s
      else none
  | _, '\r' :: '\n' :: s => (multilineBasic? .none s).map fun (t, r) => ('\n' :: t, r)
  | _, c :: s =>
    if (isText c || c = '\n') && c != '\\' then
      (multilineBasic? .none s).map fun (t, r) => (c :: t, r)
    else none
  | _, [] => none

def multilineLiteral? : Reader Text
  | [] => none
  | '\'' :: '\'' :: '\'' :: '\'' :: '\'' :: s => some (['\'', '\''], s)
  | '\'' :: '\'' :: '\'' :: '\'' :: s => some (['\''], s)
  | '\'' :: '\'' :: '\'' :: s => some ([], s)
  | '\r' :: '\n' :: s => (multilineLiteral? s).map fun (t, r) => ('\n' :: t, r)
  | c :: s =>
    if isText c || c = '\n' then (multilineLiteral? s).map fun (t, r) => (c :: t, r) else none

-- A newline right after three opening quotes is no part of the string.
def dropNewline : Text → Text
  | '\n' :: s => s
  | '\r' :: '\n' :: s => s
  | s => s

def singleLine? : Reader Text
  | '"' :: s => basic? s
  | '\'' :: s => literal? s
  | _ => none

def string? : Reader Text
  | '"' :: '"' :: '"' :: s => multilineBasic? .none (dropNewline s)
  | '\'' :: '\'' :: '\'' :: s => multilineLiteral? (dropNewline s)
  | s => singleLine? s

end PathSieve.Toml
