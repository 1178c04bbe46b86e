import PathSieve.Command.Print.Format
import PathSieve.Command.Tool.Filter
import PathSieve.Command.Tool.Names

namespace PathSieve.Command.Tool

def sequence (first : Nat) (step : Int) (last : Nat) : Bytes :=
  let distance : Int := if step < 0 then first - last else last - first
  let count := if step = 0 || distance < 0 then 0 else distance.toNat / step.natAbs + 1
  (List.range count).flatMap fun (i : Nat) =>
    Utf8.encode (Text.decimal ((first : Int) + i * step).toNat ++ ['\n'])

def step? (s : Text) : Option Int :=
  match s with
  | '-' :: s => (Text.ofDecimal? s).map fun n => -(n : Int)
  | s => (Text.ofDecimal? s).map Int.ofNat

def seq (call : Call) (args : List Text) : Outcome :=
  let invalid (s : Text) : Outcome :=
    call.refuse ("invalid floating point argument: '".toList ++ s ++ ['\''])
  match args with
  | [] => call.refuse "missing operand".toList
  | [first, step, last] =>
    match Text.ofDecimal? first, step? step, Text.ofDecimal? last with
    | some a, some d, some b => .success (sequence a d b)
    | _, _, _ => invalid first
  | [first, last] =>
    match Text.ofDecimal? first, Text.ofDecimal? last with
    | some a, some b => .success (sequence a 1 b)
    | none, _ => invalid first
    | _, none => invalid last
  | [last] => ((Text.ofDecimal? last).map fun n => .success (sequence 1 1 n)).getD (invalid last)
  | _ :: _ :: _ :: extra :: _ => call.refuse ("extra operand '".toList ++ extra ++ ['\''])

def printf (call : Call) (args : List Bytes) : Outcome :=
  let printed := Print.printf args
  let faults := printed.faults.map fun fault => call.fail fault.message
  faults.foldl Outcome.andThen (.success printed.out)

def rules : List (String × Options.Rules × Nat) :=
  [("cat", { letters := "AbeEnstTuv".toList }, 1),
    ("head", { letters := "qvz".toList, valued := "cn".toList }, 1),
    ("tail", { letters := "fFqvz".toList, valued := "cns".toList }, 1),
    ("sort", { letters := "bcCdfghiMmnrRsuVz".toList, valued := "koStT".toList }, 2),
    ("uniq", { letters := "cdDiuz".toList, valued := "fsw".toList }, 1),
    ("tac", { letters := "br".toList, valued := ['s'] }, 1),
    ("wc", { letters := "clLmw".toList }, 1),
    ("ls",
      { letters := "abcdfghiklmnopqrstuvxABCDFGHLNQRSUXZ1".toList, valued := "wITw".toList }, 2),
    ("tr", { letters := "cCdst".toList, endsAtOperand := true }, 1),
    ("grep", { letters := "EFGcinqsvwx".toList, valued := "efm".toList }, 2),
    ("sed", { letters := "bEnrsuz".toList, valued := "efl".toList }, 1),
    ("basename", { letters := "az".toList, valued := ['s'], endsAtOperand := true }, 1),
    ("dirname", { letters := ['z'] }, 1),
    ("sleep", {}, 1),
    ("pwd", { letters := "LP".toList }, 1)]

def runOn (call : Call) (name : String) (found : Options.Found) : Except Outcome Outcome :=
  match name with
  | "head" => head call found
  | "tail" => tail call found
  | "cat" => .ok (call.through (if found.has 'n' then numbered else id) found.operands)
  | "grep" => .ok (grep call found)
  | "sort" =>
    let sorted := call.through (sort found) found.operands
    .ok (if sorted.status.isSuccess then sorted else { sorted with status := .exit 2 })
  | "uniq" => .ok (call.through (fun s => ofLines (linesOf s).eraseReps) found.operands)
  | "tac" => .ok (call.through (fun s => ofLines (linesOf s).reverse) found.operands)
  | "wc" => .ok (count call found)
  | "ls" => .ok (ls call found)
  | "tr" => .ok (tr call found)
  | "sed" => .ok (sed call found)
  | "basename" => .ok (base call found)
  | "dirname" =>
    if found.operands.isEmpty then .error (call.refuse "missing operand".toList)
    else .ok (.success (ofLines (found.operands.map directoryName)))
  | "pwd" =>
    .ok (.success (ofLines [call.world.workingDirectory]))
  | _ => .ok (.success [])

def run? (call : Call) (name : String) (args : List Bytes) : Option Outcome :=
  match name with
  | "find" => some (Find.run call.world call.called args)
  | "true" => some (.success [])
  | "false" => some ⟨[], [], .exit 1⟩
  | "echo" => some (.success (Print.echo args))
  | "printf" => some (printf call args)
  | "seq" => some (seq call (args.map text))
  | name =>
    (rules.lookup name).map fun (rules, status) =>
      match Options.read rules args with
      | .error fault => { call.refuse fault.message with status := .exit status }
      | .ok found =>
        match runOn call name found with
        | .ok outcome | .error outcome => outcome

end PathSieve.Command.Tool
