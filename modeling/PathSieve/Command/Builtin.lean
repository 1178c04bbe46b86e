import PathSieve.Command.Condition
import PathSieve.Command.Find
import PathSieve.Command.Machine
import PathSieve.Command.Print.Format

namespace PathSieve.Command.Shell

def bytes (s : String) : Bytes := Utf8.encode s.toList

def nameOf (s : Bytes) : String := String.ofList (Utf8.decodeLossy s)

def illegalNumber (s : Bytes) : Text := "Illegal number: ".toList ++ Utf8.decodeLossy s

def isOption (s : Bytes) : Bool := s.head? == some 0x2D && s != [0x2D]

def optionLetters : List (String × Char) :=
  [("errexit", 'e'), ("noglob", 'f'), ("nounset", 'u'), ("xtrace", 'x'), ("verbose", 'v'),
    ("noexec", 'n'), ("noclobber", 'C'), ("allexport", 'a'), ("notify", 'b'), ("monitor", 'm')]

def setAll (m : Machine) : List Bytes → Machine
  | [] => m.finish 0
  | option :: args =>
    let letters := (Utf8.decodeLossy option).tail
    let isOn := option.head? == some 0x2D
    let illegal (what : Text) : Machine :=
      m.abort "set".toList ("Illegal option ".toList ++ (Utf8.decodeLossy option).take 1 ++ what)
    let change (m : Machine) : Machine := (letters.filter (· != 'o')).foldl (·.setOption isOn) m
    if option = [0x2D, 0x2D] then { m with args, last := 0 }
    else if !isOn && option.head? != some 0x2B then { m with args := option :: args, last := 0 }
    else match letters.find? fun c => c != 'o' && !optionLetters.any (·.2 == c) with
      | some letter => illegal [letter]
      | none =>
        match args with
        | name :: rest =>
          if !letters.contains 'o' then setAll (change m) (name :: rest)
          else match optionLetters.lookup (nameOf name) with
            | some letter => setAll ((change m).setOption isOn letter) rest
            | none => illegal ("o ".toList ++ Utf8.decodeLossy name)
        | [] => (change m).finish 0

def signalNames : List Text :=
  let counted (name : String) (n : Nat) : Text := name.toList ++ Text.decimal n
  let below := (Status.signalNames.take 15) ++ "16".toList :: Status.signalNames.drop 16
  ['0'] :: below ++ ["32", "33", "RTMIN"].map String.toList ++
    (List.range 15).map (fun n => counted "RTMIN+" (n + 1)) ++
    (List.range 14).map (fun n => counted "RTMAX-" (14 - n)) ++ ["RTMAX".toList]

def signal? (s : Bytes) : Option Nat :=
  match Find.number? s with
  | some n => if n < signalNames.length then some n else none
  | none =>
    let name := (Utf8.decodeLossy s).map Char.toUpper
    signalNames.findIdx? (· == name)

def isIgnored (signal : Nat) : Bool := signal ∈ [0, 17, 18, 23, 28]

def sendOn (m : Machine) (signal : Nat) : List Bytes → Machine
  | [] => m.finish 0
  | process :: others =>
    if process = m.process then
      if isIgnored signal || m.ignored.contains signal then sendOn m signal others
      else (m.finish 0).endWith (.signal signal)
    else if (Find.number? process).isNone then
      m.refuse "kill".toList (illegalNumber process)
    else (m.tell "kill: No such process\n".toList).finish 1

def send (m : Machine) (signal : Nat) (processes : List Bytes) : Machine :=
  if processes.isEmpty then
    m.refuse "kill".toList
      ("Usage: kill [-s sigspec | -signum | -sigspec] [pid | job]... or\n".toList ++
        "kill -l [exitstatus]".toList)
  else sendOn m signal processes

def signalOf (m : Machine) (status : Bytes) : Machine :=
  match Find.number? status with
  | none => m.refuse "kill".toList (illegalNumber status)
  | some n =>
    match signalNames[if 128 < n then n - 128 else n]? with
    | some name => (m.write (Utf8.encode (name ++ ['\n']))).finish 0
    | none =>
      m.refuse "kill".toList
        ("invalid signal number or name: ".toList ++ Utf8.decodeLossy status)

def kill (m : Machine) (args : List Bytes) : Machine :=
  match args with
  | [] => send m 15 []
  | option :: rest =>
    if option = [0x2D, 0x2D] then send m 15 rest
    else if !isOption option then send m 15 args
    else match signal? option.tail, nameOf option, rest with
      | some signal, _, processes => send m signal processes
      | none, "-s", name :: processes =>
        match signal? name with
        | some signal => send m signal processes
        | none =>
          m.refuse "kill".toList
            ("invalid signal number or name: ".toList ++ Utf8.decodeLossy name)
      | none, "-s", [] => m.refuse "kill".toList "No arg for -s option".toList
      | none, "-l", status :: _ => signalOf m status
      | none, "-l", [] =>
        (m.write (Utf8.encode (signalNames.flatMap (· ++ ['\n'])))).finish 0
      | none, _, _ =>
        m.refuse "kill".toList ("Illegal option ".toList ++ (Utf8.decodeLossy option).take 2)

def trap (m : Machine) (args : List Bytes) : Machine :=
  match args with
  | [] :: names => { m with ignored := names.filterMap signal? ++ m.ignored, last := 0 }
  | _ => m.finish 0

def changeDirectory (m : Machine) (path : Bytes) : Machine :=
  match m.world.find? path with
  | .ok place =>
    if place.tree.isDirectory then
      let world := m.world.enter place
      ({ m with world }.assign "PWD".toList world.workingDirectory).finish 0
    else m.refuse "cd".toList ("can't cd to ".toList ++ Path.display path)
  | .error _ => m.refuse "cd".toList ("can't cd to ".toList ++ Path.display path)

def count (byDefault : Nat) : List Bytes → Except Text Nat
  | [] => .ok byDefault
  | arg :: _ =>
    match Find.number? arg with
    | some n => .ok n
    | none => .error (illegalNumber arg)

def shift (m : Machine) (args : List Bytes) : Machine :=
  match count 1 args with
  | .error why => m.abort "shift".toList why
  | .ok n =>
    if m.args.length < n then m.abort "shift".toList "can't shift that many".toList
    else { m with args := m.args.drop n, last := 0 }

def exit (m : Machine) (args : List Bytes) : Machine :=
  match count m.last args with
  | .ok n => (m.finish (n % 256)).endWith (.exit (n % 256))
  | .error why => m.abort "exit".toList why

def leave (m : Machine) (args : List Bytes) : Machine :=
  match count m.last args with
  | .ok n => { m with last := n % 256, leaving := some .function }
  | .error why => m.abort "return".toList why

def leaveLoops (m : Machine) (name : Text) (goesOn : Bool) (args : List Bytes) : Machine :=
  match count 1 args with
  | .error why => m.abort name why
  | .ok n =>
    if m.loops = 0 then m.finish 0
    else { m with last := 0, leaving := some (.loops (min n m.loops) goesOn) }

def test (m : Machine) (command : Text) (args : List Bytes) : Machine :=
  match Condition.holdsAny m.world args with
  | .ok answer => m.finish (if answer then 0 else 1)
  | .error why => m.refuse command why.message

def declare (m : Machine) (isExported : Bool) (args : List Bytes) : Machine :=
  (args.foldl (fun m arg =>
    let (name, rest) := (Utf8.decodeLossy arg).span (· != '=')
    let m := if isExported then { m with exported := name :: m.exported } else m
    if rest.isEmpty then m else m.assign name (Utf8.encode rest.tail)) m).finish 0

def readVariables (m : Machine) : List Bytes → Text → Machine
  | [], _ => m
  | [name], s => m.assign (Utf8.decodeLossy name) (Utf8.encode (Text.trim s))
  | name :: names, s =>
    let s := s.dropWhile Text.isBlank
    readVariables (m.assign (Utf8.decodeLossy name) (Utf8.encode (s.takeWhile (!Text.isBlank ·))))
      names (s.dropWhile (!Text.isBlank ·))

def read (m : Machine) (args : List Bytes) : Machine :=
  let names := args.filter (!isOption ·)
  if names.isEmpty then m.refuse "read".toList "arg count".toList
  else
    let text := m.input.takeWhile (· != 0x0A)
    let rest := m.input.dropWhile (· != 0x0A)
    (readVariables { m with input := rest.tail } names (Utf8.decodeLossy text)).finish
      (if rest.isEmpty then 1 else 0)

def printf (m : Machine) (args : List Bytes) : Machine :=
  let printed := Print.printf args
  let status := (printed.faults.map Print.Fault.status).foldl max 0
  (printed.faults.foldl (fun m fault => m.refuse "printf".toList fault.message)
    (m.write printed.out)).finish status

def builtin? (m : Machine) (name : String) (args : List Bytes) : Option Machine :=
  match name with
  | ":" | "true" | "wait" | "umask" | "ulimit" | "hash" => some (m.finish 0)
  | "false" => some (m.finish 1)
  | "echo" => some ((m.write (Print.shellEcho args)).finish 0)
  | "printf" => some (printf m args)
  | "pwd" => some ((m.write (m.world.workingDirectory ++ [0x0A])).finish 0)
  | "cd" => some ((args.head?.map (changeDirectory m)).getD (m.finish 0))
  | "set" => some (setAll m args)
  | "kill" => some (kill m args)
  | "trap" => some (trap m args)
  | "shift" => some (shift m args)
  | "exit" => some (exit m args)
  | "return" => some (leave m args)
  | "break" => some (leaveLoops m name.toList false args)
  | "continue" => some (leaveLoops m name.toList true args)
  | "export" => some (declare m true args)
  | "readonly" | "local" => some (declare m false args)
  | "unset" =>
    some { m with
      bindings := m.bindings.filter fun v => Utf8.encode v.1 ∉ args
      last := 0 }
  | "read" => some (read m args)
  | "test" => some (test m name.toList args)
  | "[" =>
    some (if args.getLast? = some (bytes "]") then test m name.toList args.dropLast
      else m.refuse name.toList Condition.Fault.unclosed.message)
  | _ => none

end PathSieve.Command.Shell
