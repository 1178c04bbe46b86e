import PathSieve.Command.Substitute
import PathSieve.Command.Tool.Call
import PathSieve.Text.Digits

namespace PathSieve.Command.Tool

open Find (newline)

def Call.cut (call : Call) (f : Bytes → Bytes) : List Bytes → Outcome
  | [] => .success (f call.input)
  | [path] => shown [] path
  | path :: paths =>
    paths.foldl (fun done path => Outcome.andThen done (shown (newline :: title path) path))
      (shown (title path) path)
where
  title (path : Bytes) : Bytes :=
    Utf8.encode "==> ".toList ++ path ++ Utf8.encode " <==\n".toList
  shown (title path : Bytes) : Outcome :=
    match call.read path with
    | .ok content => .success (title ++ f content)
    | .error .isDirectory =>
      call.fail ("error reading '".toList ++ Path.display path ++ "': Is a directory".toList)
    | .error cause =>
      call.fail ("cannot open '".toList ++ Path.display path ++ "' for reading: ".toList ++
        cause.description)

def amount (call : Call) (unit : String) (value : Text) : Except Outcome Nat :=
  match Text.ofDecimal? value with
  | some n => .ok n
  | none =>
    .error (call.fail ("invalid number of ".toList ++ unit.toList ++ ": '".toList ++ value ++
      ['\'']))

def head (call : Call) (found : Options.Found) : Except Outcome Outcome := do
  match found.value? 'c' with
  | some value =>
    let n ← amount call "bytes" value
    return call.cut (·.take n) found.operands
  | none =>
    let n ← amount call "lines" ((found.value? 'n').getD ['1', '0'])
    let cut (s : Bytes) : Bytes :=
      if (linesOf s).length ≤ n then s else ofLines ((linesOf s).take n)
    return call.cut cut found.operands

def tail (call : Call) (found : Options.Found) : Except Outcome Outcome := do
  let value := (found.value? 'n').getD ['1', '0']
  let isFrom := value.head? == some '+'
  let n ← amount call "lines" (if isFrom then value.tail else value)
  return call.cut (fun s =>
    let ls := linesOf s
    ofLines (ls.drop (if isFrom then n - 1 else ls.length - n))) found.operands

def sort (found : Options.Found) (s : Bytes) : Bytes :=
  let ls := (linesOf s).mergeSort fun a b => a ≤ b
  let ls := if found.has 'u' then ls.eraseReps else ls
  ofLines (if found.has 'r' then ls.reverse else ls)

def setOf : Text → Text
  | '\\' :: 'n' :: s => '\n' :: setOf s
  | '\\' :: 't' :: s => '\t' :: setOf s
  | '\\' :: 'r' :: s => '\r' :: setOf s
  | '\\' :: '0' :: s => '\x00' :: setOf s
  | a :: '-' :: b :: s =>
    (List.range (b.toNat + 1 - a.toNat)).map (fun i => Char.ofNat (a.toNat + i)) ++ setOf s
  | c :: s => c :: setOf s
  | [] => []

def translated (set target : Text) (c : Char) : Char :=
  match set.findIdx? (· == c) with
  | none => c
  | some i => (target[i]?).getD (target.getLastD c)

def tr (call : Call) (found : Options.Found) : Outcome :=
  match found.has 'd', found.operands.map text with
  | true, [set] => .success (Utf8.encode ((text call.input).filter (· ∉ setOf set)))
  | false, [set, target] =>
    .success (Utf8.encode ((text call.input).map (translated (setOf set) (setOf target))))
  | _, _ => call.refuse "missing operand".toList

def count (call : Call) (found : Options.Found) : Outcome :=
  let isInBytes := found.has 'c' || found.has 'm'
  let measure (s : Bytes) : Nat := if isInBytes then s.length else s.count newline
  match found.operands with
  | [] => .success (Utf8.encode (Text.decimal (measure call.input) ++ ['\n']))
  | paths =>
    paths.foldl (fun done path =>
      Outcome.andThen done (match call.read path with
        | .ok s => .success (Utf8.encode (Text.decimal (measure s) ++ [' ']) ++ path ++ [newline])
        | .error cause => call.fail (file path cause))) (.success [])

def sed (call : Call) (found : Options.Found) : Outcome :=
  match found.operands with
  | script :: files =>
    match Substitute.parse? (text script) with
    | none => call.fail "-e expression #1, char 1: unknown command".toList
    | some sub => call.through sub.apply files
  | [] => call.fail "no script".toList

def grep (call : Call) (found : Options.Found) : Outcome :=
  match found.operands with
  | [] =>
    { call.refuse "no pattern".toList with status := .exit 2 }
  | pattern :: files =>
    let pattern := Pattern.parse (text pattern)
    let isTaken (l : Bytes) : Bool := pattern.occurs true (text l) != found.has 'v'
    let all := call.through (fun s => ofLines ((linesOf s).filter isTaken)) files
    let out := if found.has 'c' then
      Utf8.encode (Text.decimal (linesOf all.stdout).length ++ ['\n'])
      else if found.has 'q' then [] else all.stdout
    { all with
      stdout := out
      status := if all.status.isSuccess then .exit (if all.stdout.isEmpty then 1 else 0)
        else .exit 2 }

def numbered (s : Bytes) : Bytes :=
  ((linesOf s).zipIdx 1).flatMap fun (l, n) =>
    let number := Text.decimal n
    Utf8.encode (List.replicate (6 - number.length) ' ' ++ number ++ ['\t']) ++ l ++ [newline]

end PathSieve.Command.Tool
