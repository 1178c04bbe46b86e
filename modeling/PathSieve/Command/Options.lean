import PathSieve.Text.Utf8

namespace PathSieve.Command.Options

structure Rules where
  letters : Text := []
  valued : Text := []
  endsAtOperand : Bool := false

structure Found where
  options : List (Char × Text) := []
  operands : List Bytes := []

def Found.has (found : Found) (letter : Char) : Bool := found.options.any (·.1 == letter)

def Found.value? (found : Found) (letter : Char) : Option Text :=
  (found.options.reverse.find? (·.1 == letter)).map (·.2)

inductive Fault where
  | unknown (letter : Char)
  | unknownName (option : Text)
  | noValue (letter : Char)
  deriving DecidableEq, Repr

def Fault.message : Fault → Text
  | unknown letter => "invalid option -- '".toList ++ [letter, '\'']
  | unknownName option => "unrecognized option '".toList ++ option ++ ['\'']
  | noValue letter => "option requires an argument -- '".toList ++ [letter, '\'']

def ofLetters (rules : Rules) : Text → Except Fault (List (Char × Text) × Option Char)
  | [] => .ok ([], none)
  | c :: s =>
    if c ∈ rules.valued then
      .ok (if s.isEmpty then ([], some c) else ([(c, s)], none))
    else if c ∈ rules.letters then do
      let (options, pending) ← ofLetters rules s
      return ((c, []) :: options, pending)
    else .error (.unknown c)

def readFrom (rules : Rules) : (pending : Option Char) → List Bytes → Except Fault Found
  | some letter, [] => .error (.noValue letter)
  | none, [] => .ok {}
  | some letter, arg :: args => do
    let found ← readFrom rules none args
    return { found with options := (letter, Utf8.decodeLossy arg) :: found.options }
  | none, arg :: args =>
    match Utf8.decodeLossy arg with
    | ['-', '-'] => .ok { operands := args }
    | '-' :: '-' :: name => .error (.unknownName ('-' :: '-' :: name))
    | '-' :: c :: s => do
      let (options, pending) ← ofLetters rules (c :: s)
      let found ← readFrom rules pending args
      return { found with options := options ++ found.options }
    | _ =>
      if rules.endsAtOperand then .ok { operands := arg :: args }
      else do
        let found ← readFrom rules none args
        return { found with operands := arg :: found.operands }

def withAmount (rules : Rules) : List Bytes → List Bytes
  | (0x2D :: digits) :: args =>
    let isNumber := !digits.isEmpty && digits.all fun b => 0x30 ≤ b && b ≤ 0x39
    if isNumber && 'n' ∈ rules.valued then (0x2D :: 0x6E :: digits) :: args
    else (0x2D :: digits) :: args
  | args => args

def read (rules : Rules) (args : List Bytes) : Except Fault Found :=
  readFrom rules none (withAmount rules args)

end PathSieve.Command.Options
