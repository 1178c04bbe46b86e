import PathSieve.Toml.Quoted
import PathSieve.Toml.Moment
import PathSieve.Toml.Table

/-!
Keys and values. Arrays and braces may nest `depthLimit` deep, and a dotted key may have as many
parts.
-/
namespace PathSieve.Toml

def depthLimit : Nat := 79

def dropSpaces (s : Text) : Text := s.dropWhile isSpace

def isBare (c : Char) : Bool :=
  isDigit c || ('a' ≤ c && c ≤ 'z') || ('A' ≤ c && c ≤ 'Z') || c = '-' || c = '_'

def name? (s : Text) : Option (Text × Text) :=
  match s.takeWhile isBare with
  | [] => singleLine? s
  | bare => some (bare, s.dropWhile isBare)

def key? (s : Text) : Option (Key × Text) := do
  let (name, r) ← name? s
  some (⟨name, .between s r⟩, r)

def keys? : (fuel : Nat) → Reader (List Key)
  | 0, _ => none
  | fuel + 1, s => do
    let (key, r) ← key? (dropSpaces s)
    match dropSpaces r with
    | '.' :: r => do
      let (keys, r) ← keys? fuel r
      some (key :: keys, r)
    | r => some ([key], r)

def dottedKey? (s : Text) : Option ((List Key × Key) × Text) := do
  let (keys, r) ← keys? depthLimit s
  let last ← keys.getLast?
  some ((keys.dropLast, last), r)

def dropBlank : (comment : Bool) → Text → Text
  | _, '\n' :: s => dropBlank false s
  | _, '\r' :: '\n' :: s => dropBlank false s
  | true, c :: s => if isText c then dropBlank true s else c :: s
  | false, '#' :: s => dropBlank true s
  | false, c :: s => if isSpace c then dropBlank false s else c :: s
  | _, [] => []

def keyword? : Reader Scalar
  | 't' :: 'r' :: 'u' :: 'e' :: s => some (.boolean true, s)
  | 'f' :: 'a' :: 'l' :: 's' :: 'e' :: s => some (.boolean false, s)
  | _ => none

/-- A value that is neither an array nor a table. A date is tried before a number, and a number
with a fraction before a whole one, as the shorter ones begin the longer ones. -/
def scalarValue? (s : Text) : Option (Scalar × Text) :=
  (string? s).map (fun (t, r) => (.string t, r)) <|>
    (moment? s).map (fun r => (.moment, r)) <|>
    (float? s).map (fun (x, r) => (.float x, r)) <|>
    (integer? s).map (fun (n, r) => (.integer n, r)) <|>
    keyword? s

def items? (item? : Reader Node) : (fuel : Nat) → Reader (List Node)
  | 0, _ => none
  | fuel + 1, s =>
    match dropBlank false s with
    | ']' :: r => some ([], r)
    | s => do
      let (item, r) ← item? s
      match dropBlank false r with
      | ',' :: r => do
        let (items, r) ← items? item? fuel r
        some (item :: items, r)
      | ']' :: r => some ([item], r)
      | _ => none

def entries? (item? : Reader Node) : (fuel : Nat) → Node → Reader Node
  | 0, _, _ => none
  | fuel + 1, table, s => do
    let ((path, key), r) ← dottedKey? s
    let r ← char? '=' r
    let (value, r) ← item? (dropSpaces r)
    let table ← table.assign? path key value
    match dropSpaces r with
    | ',' :: r => entries? item? fuel table r
    | '\x7d' :: r => some (table, r)
    | _ => none

def braces? (item? : Reader Node) (s : Text) : Option (Node × Text) :=
  match dropSpaces s with
  | '\x7d' :: r => some (.table none .braced [], r)
  | _ => entries? item? s.length (.table none .braced []) s

def Node.place (start stop : Text) : Node → Node
  | .table _ origin es => .table (some (.between start stop)) origin es
  | node => node

def value? : (depth : Nat) → Reader Node
  | depth + 1, '[' :: s => do
    let (items, r) ← items? (value? depth) s.length s
    some (.array (.between ('[' :: s) r) items, r)
  | depth + 1, '\x7b' :: s => do
    let (table, r) ← braces? (value? depth) s
    some (table.place ('\x7b' :: s) r, r)
  | _, s => do
    let (value, r) ← scalarValue? s
    some (.scalar (.between s r) value, r)

end PathSieve.Toml
