import PathSieve.Text.Utf8

/-!
Paths are byte strings. A path is read as its components: repeated and trailing slashes and the
`.` components inside it do not count, a `.` in front does.
-/
namespace PathSieve.Path

def slash : UInt8 := 0x2F

def dot : UInt8 := 0x2E

inductive Component where
  | root
  | current
  | parent
  | name (bytes : Bytes)
  deriving DecidableEq, Repr

namespace Component

def ofPiece (piece : Bytes) : Component :=
  if piece = [dot] then current else if piece = [dot, dot] then parent else name piece

def spelling : Component → Bytes
  | root => [slash]
  | current => [dot]
  | parent => [dot, dot]
  | name bytes => bytes

end Component

def isAbsolute (path : Bytes) : Bool := path.head? == some slash

def pieces (path : Bytes) : List Component :=
  ((Text.splitOn (· == slash) path).filter (!·.isEmpty)).map Component.ofPiece

def components (path : Bytes) : List Component :=
  let inner (cs : List Component) := cs.filter (· != .current)
  if isAbsolute path then .root :: inner (pieces path)
  else match pieces path with
    | .current :: cs => .current :: inner cs
    | cs => inner cs

def join (base path : Bytes) : Bytes :=
  if isAbsolute path then path
  else match base.getLast? with
    | none => path
    | some last => if last = slash then base ++ path else base ++ slash :: path

def assemble (cs : List Component) : Bytes := cs.foldl (fun path c => join path c.spelling) []

def display (path : Bytes) : Text := Utf8.decodeLossy path

theorem join_nil (path : Bytes) : join [] path = path := by simp [join]

end PathSieve.Path
