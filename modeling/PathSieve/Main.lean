import PathSieve.Command.Program
import PathSieve.Session

/-! The command line. A session needs a world, so the part of the file system that its arguments can
reach is read into one first: the files that may hold settings, and the directory to its depth. -/

namespace PathSieve.Main

def bytes (s : String) : Bytes := s.toUTF8.toList

def names (path : String) : List Bytes := (World.pieces (bytes path)).filter (· != [])

def succeeds {α : Type} (action : IO α) : IO Bool := do
  try
    discard action
    return true
  catch _ => return false

def directory (path : String) : IO Tree := do
  let canList ← succeeds do (← IO.FS.realPath path).readDir
  return .directory [] ⟨canList, ← succeeds do (← IO.FS.realPath (path ++ "/.")).metadata⟩

-- The content of a file is read only where a path ends.
def leaf (path : String) (isLast : Bool) : IO Tree := do
  match (← (← IO.FS.realPath path).metadata).type with
  | .dir => directory path
  | _ =>
    if !isLast then return .file [] false true
    try return .file (← IO.FS.readBinFile path).toList false true
    catch _ => return .file [] false false

def scan : (depth : Nat) → (path : String) → IO (List (List Bytes × Tree))
  | 0, _ => pure []
  | depth + 1, path => do
    let mut found := []
    for entry in ← (← IO.FS.realPath path).readDir do
      let path := entry.path.toString
      match (← entry.path.symlinkMetadata).type with
      | .dir =>
        let inside ← try scan depth path catch _ => pure []
        found := found ++ (names path, ← directory path) :: inside
      | .symlink => found := found ++ [(names path, .link [])]
      | _ => found := found ++ [(names path, .file [] false true)]
    return found

/-- Adds to a tree what a path passes, and gives the real path that it leads to. A link on the way
becomes a link to the real path behind it. -/
def reveal (root : Tree) (base : String) : List String → IO (Tree × Option String)
  | [] => pure (root, some (if base.isEmpty then "/" else base))
  | piece :: todo =>
    if piece.isEmpty || piece == "." then reveal root base todo
    else do
      let path := base ++ "/" ++ piece
      let reached ← try pure (some (← IO.FS.realPath path).toString) catch _ => pure none
      match reached with
      | none => return (root, none)
      | some real =>
        let root := Tree.put (← leaf real todo.isEmpty) (names real) root
        let isLink := piece != ".." && names real != names path
        reveal (if isLink then Tree.put (.link (bytes real)) (names path) root else root) real todo

def revealPath (world : World) (cwd : String) (path : Bytes) : IO (World × Option String) := do
  let base := if Path.isAbsolute path then "" else cwd
  let pieces := (World.pieces path).map fun piece => String.ofList (Path.display piece)
  let (root, real) ← reveal world.root base pieces
  return ({ world with root }, real)

def survey (env : Environment) (arguments : Arguments) : IO World := do
  let cwd := (← IO.FS.realPath (← IO.currentDir)).toString
  let mut world : World := ⟨Tree.put .empty (names cwd) .empty, names cwd⟩
  let files := match arguments.settings with
    | some path => [path]
    | none => Settings.candidates arguments.directory env.userDirectory?
  for file in files do
    world := (← revealPath world cwd file).1
  if !arguments.fromInput then
    let (reached, real) ← revealPath world cwd arguments.directory
    world := reached
    match real with
    | none => pure ()
    | some real =>
      for (entry, t) in ← (try scan arguments.maxDepth real catch _ => pure []) do
        world := { world with root := Tree.put t entry world.root }
  return world

def fields (path : String) (separator : Char → Bool) : IO (List (List String)) := do
  let lines := (← IO.FS.readFile path).splitToList (· == '\n')
  return lines.map fun line => (line.splitToList separator).filter (!·.isEmpty)

def accountHome : IO (Option Bytes) := do
  try
    let status ← fields "/proc/self/status" Char.isWhitespace
    let account := status.findSome? fun
      | "Uid:" :: id :: _ => some id
      | _ => none
    let accounts := ((← IO.FS.readFile "/etc/passwd").splitToList (· == '\n')).map
      (·.splitToList (· == ':'))
    return accounts.findSome? fun
      | [_, _, id, _, _, home, _] => if some id == account then some (bytes home) else none
      | _ => none
  catch _ => return none

def environment : IO Environment := do
  let read (name : String) : IO (Option Bytes) := do return (← IO.getEnv name).map bytes
  return {
    settingsDirectory := ← read "PATHCHECK_CONFIG_DIR"
    configHome := ← read "XDG_CONFIG_HOME"
    home := ← read "HOME"
    accountHome := ← accountHome
    logFilter := ← read "RUST_LOG"
    searchPath := ← read "PATH"
    noColor := ← read "NO_COLOR"
    forceColor := ← read "CLICOLOR_FORCE" }

def input : IO Bytes := do
  let stdin ← IO.getStdin
  let mut data := ByteArray.empty
  repeat
    let chunk ← stdin.read 65536
    if chunk.isEmpty then break
    data := data ++ chunk
  return data.toList

def surroundings (env : Environment) (argv : List Bytes) : IO (World × Bytes) := do
  match Arguments.parse argv with
  | .error _ => return (⟨.empty, []⟩, [])
  | .ok arguments =>
    return (← survey env arguments, ← if arguments.fromInput then input else pure [])

def diagnose (document : Text) : Toml.Diagnosis :=
  let rec go : (fuel : Nat) → Text → Toml.Diagnosis
    | 0, s => ⟨.between s s, "invalid statement".toList⟩
    | fuel + 1, s =>
      match Toml.statement? s with
      | some (_, c :: r) => go fuel (c :: r)
      | some (_, []) => ⟨.between document document, "duplicate key".toList⟩
      | none => ⟨.between s s, "invalid statement".toList⟩
  go document.length (Toml.dropMark document)

def host : Host := ⟨Command.Program.run, diagnose⟩

def run (args : List String) : IO UInt32 := do
  let env ← environment
  let argv := args.map bytes
  let (world, input) ← surroundings env argv
  let outcome := Session.run host world env argv input
  for (_, line) in outcome.remarks do
    IO.eprintln (String.ofList line)
  IO.print (String.ofList outcome.stdout)
  return outcome.code.toUInt32

end PathSieve.Main

def main (args : List String) : IO UInt32 := PathSieve.Main.run args
