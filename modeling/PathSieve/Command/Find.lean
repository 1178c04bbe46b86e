import PathSieve.Command.Outcome
import PathSieve.Glob.Reach
import PathSieve.Tree.World

/-!
The program `find` as far as it prints the entries below directories: each path on a line of its
own, between two depths, without following links. Entries may be chosen by their kind and name.
-/
namespace PathSieve.Command.Find

def newline : UInt8 := 0x0A

def greatestDepth : Nat := 2147483647

def greatestNumber : Nat := 9223372036854775807

structure Choice where
  leastDepth : Nat := 0
  mostDepth : Nat := greatestDepth
  kind : Option Char := none
  name : Option Text := none
  separator : UInt8 := newline

structure Entry where
  depth : Nat
  path : Bytes
  kind : Char
  isClosed : Bool

def kindOf : Tree → Char
  | .file _ _ _ => 'f'
  | .link _ => 'l'
  | .directory _ _ => 'd'

mutual

def entries (limit depth : Nat) (isReached : Bool) (path : Bytes) : Tree → List Entry
  | .directory es access =>
    let isClosed := depth < limit && !(isReached && access.canList)
    ⟨depth, path, 'd', isClosed⟩ ::
      if depth < limit && !isClosed then
        entriesOf limit (depth + 1) (isReached && access.canEnter) path es
      else []
  | t => [⟨depth, path, kindOf t, false⟩]

def entriesOf (limit depth : Nat) (isReached : Bool) (path : Bytes) :
    List (Bytes × Tree) → List Entry
  | [] => []
  | (name, t) :: es =>
    entries limit depth isReached (Path.join path name) t ++ entriesOf limit depth isReached path es

end

def nameTokens (pattern : Text) : List Glob.Token :=
  pattern.map fun c => if c = '*' then .anyRun else if c = '?' then .anyByte else .literal c

def lastName (path : Bytes) : Bytes :=
  (((World.pieces path).filter (!·.isEmpty)).getLast?).getD path

def Choice.takes (choice : Choice) (e : Entry) : Bool :=
  choice.leastDepth ≤ e.depth && choice.kind.all (· == e.kind) &&
    choice.name.all fun pattern => Glob.covers (nameTokens pattern) (lastName e.path)

def fail (called : Bytes) (message : Text) : Outcome :=
  ⟨[], called ++ Utf8.encode (": ".toList ++ message ++ ['\n']), .exit 1⟩

def lines (choice : Choice) (es : List Entry) : Bytes :=
  (es.filter choice.takes).flatMap fun e => e.path ++ [choice.separator]

def refused (called path : Bytes) (cause : Refusal) : Outcome :=
  fail called ('\'' :: Path.display path ++ "': ".toList ++ cause.description)

def printed (called : Bytes) (choice : Choice) (es : List Entry) : Outcome :=
  let closed := es.filter (·.isClosed)
  ⟨lines choice es, closed.flatMap fun e => (refused called e.path .denied).stderr,
    if closed.isEmpty then .exit 0 else .exit 1⟩

def print (world : World) (called : Bytes) (choice : Choice) : List Bytes → Outcome
  | [] => .success []
  | path :: paths =>
    let shown := match world.find? path with
      | .ok place => printed called choice (entries choice.mostDepth 0 true path place.tree)
      | .error cause => refused called path cause
    shown.andThen (print world called choice paths)

def digit? (b : UInt8) : Option Nat :=
  if 0x30 ≤ b && b ≤ 0x39 then some (b.toNat - 0x30) else none

def number? (s : Bytes) : Option Nat :=
  if s.isEmpty then none
  else (s.mapM digit?).map fun ds => ds.foldl (fun n d => n * 10 + d) 0

def isOption (arg : Bytes) : Bool := arg.head? == some 0x2D

def depth (option : Text) (value : Bytes) : Except Text Nat :=
  match number? value with
  | none =>
    .error ("Expected a positive decimal integer argument to ".toList ++ option ++
      ", but got '".toList ++ Path.display value ++ ['\''])
  | some n =>
    if n = greatestNumber then .error (Path.display value)
    else if greatestDepth < n then
      .error (Path.display value ++ ": Numerical result out of range".toList)
    else .ok n

def kinds : List Text := ["b", "c", "d", "p", "f", "l", "s"].map String.toList

def choose (choice : Choice) : List Bytes → Except Text Choice
  | [] => .ok choice
  | option :: args =>
    let name := Path.display option
    match String.ofList name, args with
    | "-print", args => choose choice args
    | "-print0", args => choose { choice with separator := 0 } args
    | "-maxdepth", value :: args => do
      choose { choice with mostDepth := ← depth name value } args
    | "-mindepth", value :: args => do
      choose { choice with leastDepth := ← depth name value } args
    | "-type", value :: args =>
      if kinds.contains (Path.display value) then
        choose { choice with kind := (Path.display value).head? } args
      else .error ("Unknown argument to -type: ".toList ++ Path.display value)
    | "-name", value :: args => choose { choice with name := some (Path.display value) } args
    | "-maxdepth", [] | "-mindepth", [] | "-type", [] | "-name", [] =>
      .error ("missing argument to `".toList ++ name ++ ['\''])
    | _, _ =>
      if isOption option then .error ("unknown predicate `".toList ++ name ++ ['\''])
      else .error ("paths must precede expression: `".toList ++ name ++ ['\''])

def run (world : World) (called : Bytes) (args : List Bytes) : Outcome :=
  let paths := args.takeWhile (!isOption ·)
  match choose {} (args.dropWhile (!isOption ·)) with
  | .error message => fail called message
  | .ok choice => print world called choice (if paths.isEmpty then [[Path.dot]] else paths)

end PathSieve.Command.Find
