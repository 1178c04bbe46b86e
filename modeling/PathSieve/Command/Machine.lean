import PathSieve.Command.Outcome
import PathSieve.Command.Script
import PathSieve.Text.Digits
import PathSieve.Text.Utf8
import PathSieve.Tree.World

namespace PathSieve.Command

inductive Route where
  | output
  | errors
  | captured
  | file (path : Bytes)
  | nowhere
  deriving DecidableEq, Repr

inductive Leaving where
  | loops (count : Nat) (goesOn : Bool)
  | function
  deriving DecidableEq, Repr

structure Machine where
  world : World
  name : Bytes
  args : List Bytes
  process : Bytes
  bindings : List (Text × Bytes)
  exported : List Text := []
  functions : List (Text × Script.Node) := []
  options : Text := []
  ignored : List Nat := []
  line : Nat := 1
  last : Nat := 0
  lastInner : Nat := 0
  input : Bytes := []
  routes : List (Nat × Route) := [(1, .output), (2, .errors)]
  output : List Bytes := []
  errors : List Bytes := []
  captured : List Bytes := []
  loops : Nat := 0
  leaving : Option Leaving := none
  ended : Option Status := none

namespace Machine

def isNowhere (path : Bytes) : Bool := path == Utf8.encode "/dev/null".toList

def store (world : World) (path : Bytes) (content : Bytes) : Except Refusal World :=
  match world.find? path with
  | .ok place =>
    match place.tree with
    | .directory _ _ => .error .isDirectory
    | .file _ isExecutable isReadable =>
      let root := Tree.put (.file content isExecutable isReadable) place.names.reverse world.root
      .ok { world with root }
    | .link _ => .error .missing
  | .error cause =>
    let pieces := (World.pieces path).filter (!·.isEmpty)
    let front := Text.join [Path.slash] ([Path.dot] :: pieces.dropLast)
    match world.find? (if Path.isAbsolute path then Path.slash :: front else front) with
    | .error cause => .error cause
    | .ok place =>
      match cause, pieces.getLast? with
      | .missing, some name =>
        .ok { world with
          root := Tree.put (.file content false true) (place.names.reverse ++ [name]) world.root }
      | cause, _ => .error cause

def contentOf (world : World) (path : Bytes) : Bytes := (world.read path).toOption.getD []

def writeTo (m : Machine) (route : Route) (s : Bytes) : Machine :=
  match route with
  | .output => { m with output := s :: m.output }
  | .errors => { m with errors := s :: m.errors }
  | .captured => { m with captured := s :: m.captured }
  | .nowhere => m
  | .file path =>
    match store m.world path (contentOf m.world path ++ s) with
    | .ok world => { m with world }
    | .error _ => m

def routeOf (m : Machine) (descriptor : Nat) : Route := (m.routes.lookup descriptor).getD .nowhere

def setRoute (m : Machine) (descriptor : Nat) (route : Route) : Machine :=
  { m with routes := (descriptor, route) :: m.routes.filter (·.1 != descriptor) }

def write (m : Machine) (s : Bytes) : Machine :=
  if s.isEmpty then m else m.writeTo (m.routeOf 1) s

def complain (m : Machine) (s : Bytes) : Machine :=
  if s.isEmpty then m else m.writeTo (m.routeOf 2) s

def finish (m : Machine) (status : Nat) : Machine := { m with last := status }

def endWith (m : Machine) (status : Status) : Machine := { m with ended := some status }

def tell (m : Machine) (message : Text) : Machine :=
  m.complain (m.name ++
    Utf8.encode (": ".toList ++ Text.decimal m.line ++ ": ".toList ++ message ++ ['\n']))

def refuse (m : Machine) (command message : Text) : Machine :=
  (m.tell (command ++ ": ".toList ++ message)).finish 2

def abort (m : Machine) (command message : Text) : Machine :=
  (m.refuse command message).endWith (.exit 2)

def isStopped (m : Machine) : Bool := m.ended.isSome || m.leaving.isSome

def codeOf : Status → Nat
  | .exit code => code
  | .signal number => 128 + number

def absorb (m : Machine) (outcome : Outcome) : Machine :=
  ((m.write outcome.stdout).complain outcome.stderr).finish (codeOf outcome.status)

def hasOption (m : Machine) (letter : Char) : Bool := m.options.contains letter

def setOption (m : Machine) (isOn : Bool) (letter : Char) : Machine :=
  let others := m.options.filter (· != letter)
  { m with options := if isOn then letter :: others else others }

def assign (m : Machine) (name : Text) (value : Bytes) : Machine :=
  { m with bindings := (name, value) :: m.bindings.filter (·.1 != name) }

def value? (m : Machine) (name : Text) : Option Bytes :=
  let number (n : Nat) : Option Bytes := some (Utf8.encode (Text.decimal n))
  match name with
  | ['?'] => number m.last
  | ['#'] => number m.args.length
  | ['-'] => some (Utf8.encode m.options)
  | ['$'] => some m.process
  | ['0'] => some m.name
  | ['@'] | ['*'] => some (Text.join [0x20] m.args)
  | name =>
    match Text.ofDecimal? name with
    | some n => m.args[n - 1]?
    | none => m.bindings.lookup name

def status (m : Machine) : Status := m.ended.getD (.exit m.last)

def outcome (m : Machine) : Outcome :=
  ⟨m.output.reverse.flatten, m.errors.reverse.flatten, m.status⟩

end Machine

end PathSieve.Command
