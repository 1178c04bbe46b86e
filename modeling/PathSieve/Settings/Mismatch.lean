import PathSieve.Binary64.Shortest
import PathSieve.Text.Quoted
import PathSieve.Toml.Node

namespace PathSieve.Settings

open Toml

inductive Shape where
  | string (s : Text)
  | integer (n : Int)
  | float (x : Binary64)
  | boolean (b : Bool)
  | sequence
  | map
  deriving DecidableEq, Repr

def Shape.of : Node → Shape
  | .scalar _ (.string s) => string s
  | .scalar _ (.integer n) => integer n
  | .scalar _ (.float x) => float x
  | .scalar _ (.boolean b) => boolean b
  | .scalar _ .moment => map
  | .array _ _ => sequence
  | .table _ _ _ => map
  | .tables _ => sequence

def signed (n : Int) : Text :=
  if n < 0 then '-' :: Text.decimal n.natAbs else Text.decimal n.natAbs

def tick : Char := '\x60'

def ticked (s : Text) : Text := tick :: s ++ [tick]

def Shape.text : Shape → Text
  | string s => "string ".toList ++ Quoted.quote s
  | integer n => "integer ".toList ++ ticked (signed n)
  | float x => "floating point ".toList ++ ticked x.text
  | boolean b => "boolean ".toList ++ ticked (Text.ofBool b)
  | sequence => "sequence".toList
  | map => "map".toList

inductive Mismatch where
  | unknownField (name : Text) (known : List Text)
  | wrongType (found : Shape) (expected : Text)
  | unknownVariant (name : Text) (known : List Text)
  | noVariant
  | manyVariants
  | noStringOrTable
  | notEmpty (expected : Text)
  | notTable (found : Text)
  deriving DecidableEq, Repr

namespace Mismatch

def choices : List Text → Text
  | [] => []
  | [a] => ticked a
  | [a, b] => ticked a ++ " or ".toList ++ ticked b
  | names => "one of ".toList ++ Text.join ", ".toList (names.map ticked)

def message : Mismatch → Text
  | unknownField name known =>
    "unknown field ".toList ++ ticked name ++ ", expected ".toList ++ choices known
  | wrongType found expected =>
    "invalid type: ".toList ++ found.text ++ ", expected ".toList ++ expected
  | unknownVariant name known =>
    "unknown variant ".toList ++ ticked name ++ ", expected ".toList ++ choices known
  | noVariant => "wanted exactly 1 element, found 0 elements".toList
  | manyVariants => "wanted exactly 1 element, more than 1 element".toList
  | noStringOrTable => "wanted string or table".toList
  | notEmpty expected => "expected empty ".toList ++ expected
  | notTable found => "expected table, found ".toList ++ found

end Mismatch

end PathSieve.Settings
