import PathSieve.Command.Builtin
import PathSieve.Command.Expand
import PathSieve.Command.Script.Parse

namespace PathSieve.Command.Shell

open Script

abbrev Caller := Machine → (name : Bytes) → List Bytes → Except Refusal Outcome

def isAbsent (cause : Refusal) : Bool := cause = .missing || cause = .notDirectory

def absence (name : Bytes) (cause : Refusal) : Text × Nat :=
  let why := if isAbsent cause then "not found".toList else cause.description
  (Path.display name ++ ": ".toList ++ why, if cause = .denied then 126 else 127)

def callProgram (call : Caller) (m : Machine) (name : Bytes) (args : List Bytes) : Machine :=
  match call m name args with
  | .ok outcome => m.absorb outcome
  | .error cause =>
    let (message, status) := absence name cause
    (m.tell message).finish status

def exec (call : Caller) (m : Machine) : List Bytes → Machine
  | [] => m.finish 0
  | name :: args =>
    match call m name args with
    | .ok outcome => (m.absorb outcome).endWith outcome.status
    | .error cause =>
      let (message, status) := absence name cause
      ((m.tell ("exec: ".toList ++ message)).finish status).endWith (.exit status)

def rejoin (m inner : Machine) : Machine :=
  let ended := match inner.ended with
    | some (.signal number) => some (.signal number)
    | _ => none
  { m with
    world := { inner.world with cwd := m.world.cwd }
    output := inner.output
    errors := inner.errors
    captured := inner.captured
    last := Machine.codeOf inner.status
    ended }

def capture (run : Machine → Machine) (m : Machine) : Machine × Bytes :=
  let inner := run { m.setRoute 1 .captured with captured := [] }
  (rejoin m { inner with captured := m.captured }, inner.captured.reverse.flatten)

def outputOf (run : Machine → Machine) : Expand.Running Bytes := fun m =>
  let (after, out) := capture run m
  (out, { after with last := m.last, lastInner := after.last })

def enforce (isTested : Bool) (m : Machine) : Machine :=
  if m.hasOption 'e' && !isTested && m.last != 0 && !m.isStopped then m.endWith (.exit m.last)
  else m

def openingFault (cause : Refusal) : Text :=
  if isAbsent cause then "No such file".toList else cause.description

def creatingFault (cause : Refusal) : Text :=
  if isAbsent cause then "Directory nonexistent".toList else cause.description

def redirect (outputOf : Text → Expand.Running Bytes) (m : Machine) :
    Redirection → Except Text Machine
  | .toDescriptor descriptor target => .ok (m.setRoute descriptor (m.routeOf target))
  | .fromText content =>
    let (input, m) := Expand.single outputOf content m
    .ok { m with input }
  | .fromFile file =>
    let (path, m) := Expand.single outputOf file m
    if Machine.isNowhere path then .ok { m with input := [] }
    else match m.world.read path with
      | .ok input => .ok { m with input }
      | .error cause =>
        .error ("cannot open ".toList ++ Path.display path ++ ": ".toList ++ openingFault cause)
  | .toFile descriptor appends file =>
    let (path, m) := Expand.single outputOf file m
    if Machine.isNowhere path then .ok (m.setRoute descriptor .nowhere)
    else match Machine.store m.world path
        (if appends then Machine.contentOf m.world path else []) with
      | .ok world => .ok ({ m with world }.setRoute descriptor (.file path))
      | .error cause =>
        .error ("cannot create ".toList ++ Path.display path ++ ": ".toList ++ creatingFault cause)

def rounds (step : Machine → Machine × Bool) : (fuel : Nat) → Machine → Machine
  | 0, m => m
  | fuel + 1, m =>
    match step m with
    | (m, true) => rounds step fuel m
    | (m, false) => m

def roundLimit : Nat := 100000

def afterRound (m : Machine) : Machine × Bool :=
  match m.leaving with
  | some (.loops count goesOn) =>
    if count ≤ 1 then ({ m with leaving := none }, goesOn)
    else ({ m with leaving := some (.loops (count - 1) goesOn) }, false)
  | _ => (m, !m.isStopped)

def looping (run : Machine → Machine) (m : Machine) : Machine :=
  { run { m with loops := m.loops + 1 } with loops := m.loops }

def isExec (node : Node) : Bool :=
  match node with
  | .simple _ [] [w] => plain? w == some "exec".toList
  | _ => false

def lineOf : Node → Nat
  | .simple line _ _ => line
  | _ => 1

def trace (m : Machine) (words : List Bytes) : Machine :=
  if m.hasOption 'x' then
    m.complain (bytes "+ " ++ Text.join [0x20] words ++ [0x0A])
  else m

mutual

/-- Runs a node. In a condition a failure does not end a strict script. -/
def eval (call : Caller) : (fuel : Nat) → (isTested : Bool) → Node → Machine → Machine
  | 0, _, _, m => m
  | fuel + 1, isTested, node, m =>
    let outputOf (script : Text) : Expand.Running Bytes := outputOf (runText call fuel script)
    let go (isTested : Bool) (node : Node) (m : Machine) : Machine :=
      if m.isStopped then m else eval call fuel isTested node m
    match node with
    | .simple line assignments words =>
      let start := { m with line, lastInner := 0 }
      let (fields, m) := Expand.fields outputOf words start
      let assign (m : Machine) (pair : Text × Word) : Machine :=
        let (value, m) := Expand.single outputOf pair.2 m
        m.assign pair.1 value
      if m.isStopped then m
      else match fields with
        | [] =>
          let m := assignments.foldl assign m
          if m.isStopped then m else enforce isTested (m.finish m.lastInner)
        | name :: args =>
          let given := { m with exported := assignments.map (·.1) ++ m.exported }
          let inner := evalWords call fuel name args (trace (assignments.foldl assign given) fields)
          enforce isTested
            (if assignments.isEmpty then inner
              else { inner with bindings := m.bindings, exported := m.exported })
    | .redirected inner rs =>
      match rs.foldlM (redirect outputOf) { m with line := lineOf inner } with
      | .error why => enforce isTested (({ m with line := lineOf inner }.tell why).finish 2)
      | .ok changed =>
        let after := go isTested inner changed
        if isExec inner then after else { after with routes := m.routes, input := m.input }
    | .pipeline isNegated stages =>
      let feed (state : Machine × Bytes) (stage : Node) : Machine × Bytes :=
        capture (fun inner => go true stage { inner with input := state.2 }) state.1
      match stages.getLast? with
      | none => m
      | some stage =>
        let (before, input) := stages.dropLast.foldl feed (m, m.input)
        let inner := go (isTested || isNegated) stage { before with input }
        let after := if stages.length = 1 then { inner with input := m.input } else rejoin m inner
        if isNegated then after.finish (if after.last = 0 then 1 else 0)
        else enforce isTested after
    | .joined condition left right =>
      let m := go true left m
      let isMet := match condition with
        | .onSuccess => m.last == 0
        | .onFailure => m.last != 0
      if isMet then go isTested right m else m
    | .sequence nodes => nodes.foldl (fun m node => go isTested node m) m
    | .subshell inner => enforce isTested (rejoin m (go isTested inner m))
    | .forEach name words body =>
      let round (state : Machine × Bool) (value : Bytes) : Machine × Bool :=
        if state.2 then afterRound (go isTested body (state.1.assign name value)) else state
      let (values, m) := Expand.fields outputOf words m
      looping (fun m => (values.foldl round (m, !m.isStopped)).1) (m.finish 0)
    | .branch condition body otherwise =>
      let m := go true condition m
      if m.last = 0 then go isTested body m else go isTested otherwise (m.finish 0)
    | .choose word cases =>
      let (s, m) := Expand.single outputOf word m
      let fits (pattern : Word) : Bool :=
        Expand.describes (Expand.fieldOf outputOf pattern m).1 s
      match cases.find? (·.1.any fits) with
      | some (_, body) => go isTested body (m.finish 0)
      | none => m.finish 0
    | .define name body =>
      { m with functions := (name, body) :: m.functions, last := 0 }
    | .loop isUntil condition body =>
      let step (state : Machine) : Machine × Bool :=
        let tested := go true condition state
        if tested.isStopped then afterRound tested
        else if (tested.last == 0) == isUntil then ({ tested with last := state.last }, false)
        else afterRound (go isTested body tested)
      looping (rounds step roundLimit) (m.finish 0)

def evalWords (call : Caller) : (fuel : Nat) → (name : Bytes) → List Bytes → Machine → Machine
  | 0, _, _, m => m
  | fuel + 1, name, args, m =>
    match m.functions.lookup (Utf8.decodeLossy name) with
    | some body =>
      let inner := eval call fuel false body { m with args, loops := 0 }
      { inner with
        args := m.args
        loops := m.loops
        leaving := if inner.leaving = some .function then none else inner.leaving }
    | none =>
      match nameOf name, args with
      | "exec", args => exec call m args
      | "eval", args => runText call fuel (Utf8.decodeLossy (Text.join [0x20] args)) m
      | "command", name :: args => evalWords call fuel name args { m with functions := [] }
      | ".", file :: _ =>
        let found := if file.contains Path.slash then m.world.read file else .error .missing
        match found with
        | .ok content =>
          let inner := runText call fuel (Utf8.decodeLossy content) m
          if inner.leaving = some .function then { inner with leaving := none } else inner
        | .error cause =>
          let why := if file.contains Path.slash then
            "cannot open ".toList ++ Path.display file ++ ": ".toList ++ openingFault cause
          else Path.display file ++ ": not found".toList
          m.abort ['.'] why
      | name', args =>
        match builtin? m name' args with
        | some m => m
        | none => callProgram call m name args

def runText (call : Caller) : (fuel : Nat) → Text → Machine → Machine
  | 0, _, m => m
  | fuel + 1, script, m =>
    let (nodes, fault) := parse script
    let after := nodes.foldl (fun m node =>
      if m.isStopped then m else eval call fuel false node m) m
    match fault with
    | none => after
    | some why =>
      if after.isStopped then after
      else
        (({ after with line := why.line }.tell ("Syntax error: ".toList ++ why.message)).finish
          2).endWith (.exit 2)

end

def depthLimit : Nat := 1000

def run (call : Caller) (m : Machine) (script : Text) : Machine := runText call depthLimit script m

end PathSieve.Command.Shell
