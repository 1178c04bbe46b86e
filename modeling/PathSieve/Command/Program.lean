import PathSieve.Command.Search
import PathSieve.Command.Shell
import PathSieve.Command.Tool

/-!
Programs by name. A name without a slash is looked up in the directories of a search path; any other
one is the path of a program of the system or of a script, whose first line names its interpreter.
Sessions are told how to run programs; the command line tells them to run these.
-/
namespace PathSieve.Command.Program

def isGap (b : UInt8) : Bool := b == 0x20 || b == 0x09

def interpreter? : Bytes → Option (Bytes × Option Bytes)
  | 0x23 :: 0x21 :: s =>
    let line := Text.dropEndWhile isGap ((s.takeWhile (· != 0x0A)).dropWhile isGap)
    let argument := (line.dropWhile (!isGap ·)).dropWhile isGap
    if line.isEmpty then none
    else some (line.takeWhile (!isGap ·), if argument.isEmpty then none else some argument)
  | _ => none

def processNumber : Bytes := Utf8.encode "4242".toList

structure Start where
  world : World
  bindings : List (Text × Bytes)
  input : Bytes := []

def searchName : Text := "PATH".toList

def Start.search (start : Start) : Bytes := (start.bindings.lookup searchName).getD []

def Start.ofMachine (m : Machine) : Start :=
  ⟨m.world, m.bindings.filter (m.exported.contains ·.1), m.input⟩

def Start.machine (start : Start) (name : Bytes) (args : List Bytes) : Machine :=
  let m : Machine :=
    { world := start.world, name, args, process := processNumber, bindings := start.bindings
      exported := start.bindings.map (·.1), input := start.input }
  m.assign "PWD".toList start.world.workingDirectory

variable (call : Shell.Caller)

def runShell (start : Start) (called : Bytes) (options : Text) : List Bytes → Outcome
  | [] => go called [] start.input
  | option :: args =>
    if Shell.isOption option then
      if option.contains 0x63 then
        match args with
        | [] =>
          ⟨[], called ++ Utf8.encode ": 0: -c requires an argument\n".toList, .exit 2⟩
        | script :: args => go (args.head?.getD called) args.tail script
      else runShell start called (options ++ (Utf8.decodeLossy option).tail) args
    else match start.world.read option with
      | .ok script => go option args script
      | .error cause =>
        let why := ": 0: cannot open ".toList ++ Path.display option ++ ": ".toList ++
          Shell.openingFault cause ++ ['\n']
        ⟨[], called ++ Utf8.encode why, .exit 2⟩
where
  go (name : Bytes) (args : List Bytes) (script : Bytes) : Outcome :=
    let m := start.machine name args
    (Shell.run call { m with options } (Utf8.decodeLossy script)).outcome

def runIn (start : Start) (called : Bytes) : List Bytes → Outcome
  | [] => .success []
  | name :: args =>
    if name = Utf8.encode "-i".toList then
      let bindings := start.bindings.filter (·.1 == searchName)
      runIn { start with bindings } called args
    else if name.contains 0x3D then
      let left := Utf8.decodeLossy (name.takeWhile (· != 0x3D))
      let right := (name.dropWhile (· != 0x3D)).tail
      runIn { start with bindings := (left, right) :: start.bindings } called args
    else match call (start.machine [] []) name args with
      | .ok outcome => outcome
      | .error cause =>
        { Find.fail called ('\'' :: Path.display name ++ "': ".toList ++ cause.description) with
          status := .exit (if cause = .missing then 127 else 126) }

def splitFirst : List Bytes → List Bytes
  | (0x2D :: 0x53 :: s) :: args => (Text.splitOn isGap s).filter (!·.isEmpty) ++ args
  | args => args

def shells : List String := ["sh", "dash", "bash"]

def system? (start : Start) (called : Bytes) (args : List Bytes) (name : Bytes) : Option Outcome :=
  let title := String.ofList (Utf8.decodeLossy name)
  if title ∈ shells then some (runShell call start called [] args)
  else if title = "env" then some (runIn call start called (splitFirst args))
  else Tool.run? ⟨start.world, start.input, called⟩ title args

def isPassedOver (cause : Refusal) : Bool := cause ∈ [.denied, .missing, .notDirectory]

def first (runAt : Bytes → Except Refusal Outcome) (name : Bytes) (cause : Refusal) :
    List Bytes → Except Refusal Outcome
  | [] => .error cause
  | directory :: directories =>
    match runAt (Search.candidate directory name) with
    | .error latest =>
      if isPassedOver latest then
        first runAt name (if cause = .denied then cause else latest) directories
      else .error latest
    | .ok outcome => .ok outcome

def lookUp (runAt : Bytes → Except Refusal Outcome) (search program : Bytes) :
    Except Refusal Outcome :=
  if program.isEmpty then .error .missing
  else if program.contains Path.slash then runAt program
  else first runAt program .missing (Search.directories search)

-- Runs the program at a path. Interpreters and what they call can be scripts again, `fuel` deep.
-- A shell, but no other program, runs a script without an interpreter itself.
def runAt : (fuel : Nat) → (byShell : Bool) → Start → (called : Bytes) → List Bytes →
    (path : Bytes) → Except Refusal Outcome
  | 0, _, _, _, _, _ => .error .tooManyLinks
  | fuel + 1, byShell, start, called, args, path =>
    let call (m : Machine) (name : Bytes) (args : List Bytes) : Except Refusal Outcome :=
      let start := Start.ofMachine m
      lookUp (runAt fuel true start name args) start.search name
    match (Search.systemName? path).bind (system? call start called args) with
    | some outcome => .ok outcome
    | none => do
      match (← start.world.find? path).tree with
      | .file content true _ =>
        match interpreter? content with
        | some (interpreter, argument) =>
          runAt fuel false start interpreter (argument.toList ++ path :: args) interpreter
        | none =>
          if byShell then .ok (runShell call start called [] (path :: args))
          else .error .badFormat
      | _ => .error .denied

def depthLimit : Nat := 100

def run (world : World) (search program : Bytes) (args : List Bytes) : Except Refusal Outcome :=
  let bindings := [(searchName, search), ("LC_ALL".toList, Utf8.encode ['C'])]
  lookUp (runAt depthLimit false ⟨world, bindings, []⟩ program args) search program

end PathSieve.Command.Program
