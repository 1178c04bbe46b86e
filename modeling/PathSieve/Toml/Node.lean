import PathSieve.Binary64

namespace PathSieve.Toml

abbrev Reader (α : Type) := Text → Option (α × Text)

/-- A stretch of the document, given by the numbers of characters that are left at its start and
after its end. Readers know what is left of a text, so they need no counter. -/
structure Span where
  start : Nat
  stop : Nat
  deriving DecidableEq, Repr

def Span.between (start stop : Text) : Span := ⟨start.length, stop.length⟩

def Span.upTo (a b : Span) : Span := ⟨a.start, b.stop⟩

structure Key where
  name : Text
  span : Span
  deriving DecidableEq, Repr

inductive Scalar where
  | string (s : Text)
  | integer (n : Int)
  | float (x : Binary64)
  | boolean (b : Bool)
  | moment
  deriving DecidableEq, Repr

/-- How a table came to be, which decides who may still add to it: a table with a header of its own,
one that only lies on the way to a header, one made by dotted keys, and one written in braces. -/
inductive Origin where
  | header
  | passed
  | dotted
  | braced
  deriving DecidableEq, Repr

inductive Node where
  | scalar (span : Span) (value : Scalar)
  | array (span : Span) (items : List Node)
  -- Tables that were passed or dotted have no place of their own.
  | table (span : Option Span) (origin : Origin) (entries : List (Key × Node))
  | tables (items : List Node)

abbrev Entries := List (Key × Node)

def Node.tableSpan? : Node → Option Span
  | table span _ _ => span
  | _ => none

def Node.span? : Node → Option Span
  | scalar span _ => some span
  | array span _ => some span
  | table span _ _ => span
  | tables items => do
    let first ← items.head?.bind tableSpan?
    let last ← items.getLast?.bind tableSpan?
    some (first.upTo last)

end PathSieve.Toml
