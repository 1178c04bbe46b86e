import PathSieve.Command.Arithmetic
import PathSieve.Command.Find
import PathSieve.Command.Machine
import PathSieve.Command.Script

namespace PathSieve.Command.Expand

open Script

abbrev Field := List (UInt8 × Bool)

def field (isQuoted : Bool) (s : Bytes) : Field := s.map (·, isQuoted)

def bytesOf (f : Field) : Bytes := f.map (·.1)

structure Fields where
  complete : List Field := []
  current : Option Field := none

namespace Fields

def grow (fs : Fields) (f : Field) : Fields := { fs with current := some (fs.current.getD [] ++ f) }

def cut (fs : Fields) : Fields :=
  match fs.current with
  | none => fs
  | some f => ⟨f :: fs.complete, none⟩

def isGap (b : UInt8) : Bool := b == 0x20 || b == 0x09 || b == 0x0A

def growSplit (fs : Fields) (s : Bytes) : Fields :=
  s.foldl (fun fs b => if isGap b then fs.cut else fs.grow [(b, false)]) fs

def growAll (fs : Fields) (isQuoted : Bool) : List Bytes → Fields
  | [] => fs
  | [arg] => if isQuoted then fs.grow (field true arg) else fs.growSplit arg
  | arg :: args =>
    let fs := if isQuoted then fs.grow (field true arg) else fs.growSplit arg
    fs.cut.growAll isQuoted args

def all (fs : Fields) : List Field := fs.cut.complete.reverse

end Fields

def trim (value : Bytes) (atFront isLongest : Bool) (pattern : Text) : Bytes :=
  let lengths := List.range (value.length + 1)
  let takes (n : Nat) : Bool :=
    Glob.covers (Find.nameTokens pattern)
      (if atFront then value.take n else value.drop (value.length - n))
  match (if isLongest then lengths.reverse else lengths).find? takes with
  | none => value
  | some n => if atFront then value.drop n else value.take (value.length - n)

def integer (s : Bytes) : Int :=
  match Utf8.decodeLossy s with
  | '-' :: s => -((Text.ofDecimal? s).getD 0 : Int)
  | s => (Text.ofDecimal? s).getD 0

def ofInteger (n : Int) : Bytes :=
  Utf8.encode ((if n < 0 then ['-'] else []) ++ Text.decimal n.natAbs)

abbrev Running := StateM Machine

variable (outputOf : Text → Running Bytes)

def valueOr (name : Text) (kind : Fallback) (needsContent : Bool) (other : Text) :
    Running Bytes := do
  let m ← get
  let found := (m.value? name).filter fun s => !(needsContent && s.isEmpty)
  match kind, found with
  | .replacing, some _ => return Utf8.encode other
  | .replacing, none => return []
  | _, some value => return value
  | .default, none => return Utf8.encode other
  | .assigned, none =>
    set (m.assign name (Utf8.encode other))
    return Utf8.encode other
  | .complaint, none =>
    set (m.abort name (if other.isEmpty then "parameter not set".toList else other))
    return []

def value : Expansion → Running Bytes
  | .value name => do
    let m ← get
    match m.value? name with
    | some value => return value
    | none =>
      if m.hasOption 'u' then set (m.abort name "parameter not set".toList)
      return []
  | .valueOr name kind needsContent other => valueOr name kind needsContent other
  | .size name => do
    return Utf8.encode (Text.decimal (((← get).value? name).getD []).length)
  | .trimmed name atFront isLongest pattern => do
    return trim (((← get).value? name).getD []) atFront isLongest pattern
  | .output script => return Text.dropEndWhile (· == 0x0A) (← outputOf script)
  | .number expression => do
    let m ← get
    match Arithmetic.evaluate (fun name => integer ((m.value? name).getD [])) expression with
    | some n => return ofInteger n
    | none =>
      set (m.abort "arithmetic expression".toList
        ("division by zero: ".toList ++ '"' :: expression ++ ['"']))
      return []

def addSegment (fs : Fields) : Segment → Running Fields
  | .text s isQuoted => return fs.grow (field isQuoted (Utf8.encode s))
  | .expansion (.value ['@']) isQuoted => do return fs.growAll isQuoted (← get).args
  | .expansion (.value ['*']) false => do return fs.growAll false (← get).args
  | .expansion e true => do return fs.grow (field true (← value outputOf e))
  | .expansion e false => do return fs.growSplit (← value outputOf e)

def fieldOf (w : Word) : Running Field := do
  let parts ← w.mapM fun
    | .text s isQuoted => return field isQuoted (Utf8.encode s)
    | .expansion e isQuoted => return field isQuoted (← value outputOf e)
  return parts.flatten

def single (w : Word) : Running Bytes := do return bytesOf (← fieldOf outputOf w)

def isPattern (f : Field) : Bool :=
  f.any fun (b, isQuoted) => !isQuoted && (b == 0x2A || b == 0x3F)

def tokenOf : UInt8 × Bool → Glob.Token
  | (0x2A, false) => .anyRun
  | (0x3F, false) => .anyByte
  | (b, _) => if b < 0x80 then .literal (Char.ofNat b.toNat) else .anyByte

def namesLike (world : World) (directory : Bytes) (piece : Field) : List Bytes :=
  match world.find? (if directory.isEmpty then [Path.dot] else directory) with
  | .error _ => []
  | .ok place =>
    match place.tree with
    | .directory es _ =>
      let fits (name : Bytes) : Bool :=
        Glob.covers (piece.map tokenOf) name &&
          (name.head? != some Path.dot || (piece.head?.map (·.1)) == some Path.dot)
      ((es.map (·.1)).filter fits).mergeSort fun a b => a ≤ b
    | _ => []

def pathsLike (world : World) (before : Bytes) : List Field → List Bytes
  | [] => [before]
  | piece :: pieces =>
    let slash := if pieces.isEmpty then [] else [Path.slash]
    let go (name : Bytes) : List Bytes := pathsLike world (before ++ name ++ slash) pieces
    if isPattern piece then (namesLike world before piece).flatMap go
    else
      let path := before ++ bytesOf piece
      if pieces.isEmpty && (world.find? path).toOption.isNone then [] else go (bytesOf piece)

def matched (world : World) (f : Field) : List Bytes :=
  if !isPattern f then [bytesOf f]
  else
    let pieces := Text.splitOn (fun e => e.1 == Path.slash) f
    match pathsLike world [] pieces with
    | [] => [bytesOf f]
    | paths => paths

def fields (ws : List Word) : Running (List Bytes) := do
  let found ← ws.mapM fun w => do
    let fs ← w.foldlM (addSegment outputOf) {}
    let m ← get
    return if m.hasOption 'f' then fs.all.map bytesOf else fs.all.flatMap (matched m.world)
  return found.flatten

def describes (pattern : Field) (s : Bytes) : Bool := Glob.covers (pattern.map tokenOf) s

end PathSieve.Command.Expand
