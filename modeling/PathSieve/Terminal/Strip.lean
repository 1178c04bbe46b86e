import PathSieve.Terminal.Styled
import PathSieve.Text.Utf8

/-!
Stripping: what is left of a text for a reader that is no terminal. Control sequences are dropped
whole, and so are control characters other than tabs and ends of lines and pages. A sequence is
followed from its escape character on by the states that a terminal goes through; one that is cut
off takes what comes after it along.
-/
namespace PathSieve.Terminal

inductive State where
  | ground
  | escape
  | escapeCollect
  | control
  | controlParameter
  | controlCollect
  | controlIgnore
  | device
  | deviceParameter
  | deviceCollect
  | deviceIgnore
  | deviceData
  | command
  | message
  deriving DecidableEq, Repr

namespace State

def afterEscape (n : Nat) : State :=
  if n < 0x20 || 0x7F ≤ n then escape
  else if n ≤ 0x2F then escapeCollect
  else if n = 0x5B then control
  else if n = 0x5D then command
  else if n = 0x50 then device
  else if n = 0x58 || n = 0x5E || n = 0x5F then message
  else ground

/-- The states after a character inside a sequence: `self` after one that does not count, and the
others after an intermediate, a parameter, a private mark, and the final character. -/
def choose (self collect parameter mark final : State) (n : Nat) : State :=
  if n < 0x20 || 0x7F ≤ n then self
  else if n ≤ 0x2F then collect
  else if n ≤ 0x3B then parameter
  else if n ≤ 0x3F then mark
  else final

def endsByTerminator : State → Bool
  | deviceIgnore | deviceData | message => true
  | _ => false

def terminator : UInt8 := 0x9C

def afterAscii (n : Nat) : State → State
  | ground => ground
  | escape => afterEscape n
  | escapeCollect => choose escapeCollect escapeCollect ground ground ground n
  | control => choose control controlCollect controlParameter controlParameter ground n
  | controlParameter =>
    choose controlParameter controlCollect controlParameter controlIgnore ground n
  | controlCollect => choose controlCollect controlCollect controlIgnore controlIgnore ground n
  | controlIgnore => choose controlIgnore controlIgnore controlIgnore controlIgnore ground n
  | device => choose device deviceCollect deviceParameter deviceParameter deviceData n
  | deviceParameter =>
    choose deviceParameter deviceCollect deviceParameter deviceIgnore deviceData n
  | deviceCollect => choose deviceCollect deviceCollect deviceIgnore deviceIgnore deviceData n
  | deviceIgnore => deviceIgnore
  | deviceData => deviceData
  | command => if n = 7 then ground else command
  | message => message

def after (s : State) (c : Char) : State :=
  let n := c.toNat
  if n = 0x18 || n = 0x1A then ground
  else if n = 0x1B then escape
  else if n < 0x80 then s.afterAscii n
  else if s.endsByTerminator && (String.utf8EncodeChar c).contains terminator then ground
  else s

end State

def isBreak (c : Char) : Bool := c ∈ ['\t', '\n', '\x0c', '\r']

def isVisible (c : Char) : Bool := isBreak c || (0x20 ≤ c.toNat && c.toNat != 0x7F)

def showsIn : State → Char → Bool
  | .ground, c => isVisible c
  | .escape, c | .escapeCollect, c | .control, c | .controlParameter, c | .controlCollect, c
  | .controlIgnore, c => isBreak c
  | _, _ => false

inductive Mode where
  | shown (s : State)
  | skipped (s : State)
  deriving DecidableEq, Repr

namespace Mode

-- Takes a character that is shown; one beyond ASCII makes the terminal forget its state.
def keep (s : State) (c : Char) : Mode := shown (if c.toNat < 0x80 then s else .ground)

def step (c : Char) : Mode → Mode × Bool
  | skipped s => if showsIn s c then (keep (s.after c) c, true) else (skipped (s.after c), false)
  | shown s =>
    if isVisible c then (keep s c, true) else (skipped (s.after c), false)

end Mode

def stripFrom (mode : Mode) : Text → Text
  | [] => []
  | c :: s =>
    let (next, isLeft) := mode.step c
    if isLeft then c :: stripFrom next s else stripFrom next s

def strip (s : Text) : Text := stripFrom (.skipped .ground) s

def display (isColored : Bool) (s : Styled) : Text :=
  if isColored then render s else strip (render s)

end PathSieve.Terminal
