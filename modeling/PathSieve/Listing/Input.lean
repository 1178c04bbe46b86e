import PathSieve.Failure
import PathSieve.Log
import PathSieve.Text.Blank
import PathSieve.Text.Line

/-!
Listings from input: one path a line. A line that is not UTF-8 ends the reading, and the next one
goes on behind it.
-/
namespace PathSieve.Listing.Input

structure Source where
  lines : List Bytes
  deriving DecidableEq, Repr

def newline : UInt8 := 0x0A

def Source.ofBytes (data : Bytes) : Source := ⟨Line.split newline data⟩

def path? (line : Text) : Option Text :=
  let path := Text.dropEndWhile (· == '\r') line
  if (Text.trim path).isEmpty then none else some path

def readable : List Bytes → List Text × Option (List Bytes)
  | [] => ([], none)
  | line :: lines =>
    match Utf8.decode? line with
    | none => ([], some lines)
    | some text => (text :: (readable lines).1, (readable lines).2)

def Source.read (source : Source) : Except Refusal (List Text) × Source :=
  match readable source.lines with
  | (lines, none) => (.ok (lines.filterMap path?), ⟨[]⟩)
  | (_, some rest) => (.error .notUtf8, ⟨rest⟩)

def entry (count : Nat) : Log.Entry :=
  ⟨.debug, .input, "read ".toList ++ Text.decimal count ++ " paths from stdin".toList⟩

def Source.list (source : Source) : Logged (Except Failure (List Text)) × Source :=
  match source.read with
  | (.ok paths, rest) => (⟨.ok paths, [entry paths.length]⟩, rest)
  | (.error cause, rest) => (⟨.error (.system cause), []⟩, rest)

end PathSieve.Listing.Input
