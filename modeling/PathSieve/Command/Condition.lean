import PathSieve.Text.Blank
import PathSieve.Text.Digits
import PathSieve.Tree.World

namespace PathSieve.Command.Condition

def named? (world : World) (path : Bytes) : Option Tree := do
  let names := (World.pieces path).filter (!·.isEmpty)
  let name ← names.getLast?
  let front := Text.join [Path.slash] ([Path.dot] :: names.dropLast)
  match world.find? (if Path.isAbsolute path then Path.slash :: front else front) with
  | .ok place =>
    match place.tree with
    | .directory es _ => Tree.named? name es
    | _ => none
  | .error _ => none

def isLink (world : World) (path : Bytes) : Bool :=
  match named? world path with
  | some (.link _) => true
  | _ => false

def target? (world : World) (path : Bytes) : Option Tree :=
  (world.find? path).toOption.map (·.tree)

def isFull : Tree → Bool
  | .file content _ _ => !content.isEmpty
  | _ => true

def canRun : Tree → Bool
  | .file _ isExecutable _ => isExecutable
  | _ => true

def unary? (world : World) (name : String) (operand : Bytes) : Option Bool :=
  let target (p : Tree → Bool) : Bool := (target? world operand).any p
  match name with
  | "-n" => some (!operand.isEmpty)
  | "-z" => some operand.isEmpty
  | "-e" | "-r" | "-w" => some (target fun _ => true)
  | "-f" => some (target Tree.isFile)
  | "-d" => some (target Tree.isDirectory)
  | "-s" => some (target isFull)
  | "-x" => some (target canRun)
  | "-h" | "-L" => some (isLink world operand)
  | "-t" | "-p" | "-S" | "-b" | "-c" | "-u" | "-g" | "-k" => some false
  | _ => none

def integer? (s : Bytes) : Option Int :=
  match Text.trim (Utf8.decodeLossy s) with
  | '-' :: s => (Text.ofDecimal? s).map fun n => -(n : Int)
  | '+' :: s => (Text.ofDecimal? s).map Int.ofNat
  | s => (Text.ofDecimal? s).map Int.ofNat

inductive Fault where
  | unexpectedOperator (operand : Bytes)
  | noNumber (operand : Bytes)
  | missingOperand (operator : Bytes)
  | unclosed
  deriving DecidableEq, Repr

def Fault.message : Fault → Text
  | unexpectedOperator operand => Utf8.decodeLossy operand ++ ": unexpected operator".toList
  | noNumber operand => "Illegal number: ".toList ++ Utf8.decodeLossy operand
  | missingOperand operator => Utf8.decodeLossy operator ++ ": argument expected".toList
  | unclosed => "missing ]".toList

def comparisons : List (String × (Int → Int → Bool)) :=
  [("-eq", fun a b => a = b), ("-ne", fun a b => a != b), ("-lt", fun a b => a < b),
    ("-le", fun a b => a ≤ b), ("-gt", fun a b => b < a), ("-ge", fun a b => b ≤ a)]

def isBinary (name : String) : Bool :=
  name ∈ ["=", "!=", "<", ">"] || comparisons.any (·.1 == name)

def binary (left : Bytes) (name : String) (right : Bytes) : Except Fault Bool :=
  if name = "=" then .ok (left == right)
  else if name = "!=" then .ok (left != right)
  else if name = "<" then .ok (left < right)
  else if name = ">" then .ok (right < left)
  else match comparisons.find? (·.1 == name) with
    | none => .error (.unexpectedOperator left)
    | some (_, f) =>
      match integer? left, integer? right with
      | some a, some b => .ok (f a b)
      | none, _ => .error (.noNumber left)
      | _, none => .error (.noNumber right)

def nameOf (s : Bytes) : String := String.ofList (Utf8.decodeLossy s)

def holds (world : World) : List Bytes → Except Fault Bool
  | [] => .ok false
  | [a] => .ok (!a.isEmpty)
  | [a, b] =>
    if nameOf a = "!" then .ok b.isEmpty
    else match unary? world (nameOf a) b with
      | some answer => .ok answer
      | none =>
        if isBinary (nameOf b) then .error (.missingOperand b) else .error (.unexpectedOperator a)
  | [a, b, c] =>
    if isBinary (nameOf b) then binary a (nameOf b) c
    else if nameOf b = "-a" then .ok (!a.isEmpty && !c.isEmpty)
    else if nameOf b = "-o" then .ok (!a.isEmpty || !c.isEmpty)
    else if nameOf a = "!" then (holds world [b, c]).map (!·)
    else .error (.unexpectedOperator a)
  | a :: rest =>
    if nameOf a = "!" then (holds world rest).map (!·) else .error (.unexpectedOperator a)

def holdsAny (world : World) (words : List Bytes) : Except Fault Bool :=
  if words.length ≤ 4 then holds world words
  else do
    let groups := Text.splitOn (nameOf · == "-o") words
    let answers ← groups.mapM fun group =>
      (Text.splitOn (nameOf · == "-a") group).mapM (holds world)
    return answers.any fun group => group.all id

end PathSieve.Command.Condition
