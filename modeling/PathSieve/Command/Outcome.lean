import PathSieve.Text

namespace PathSieve.Command

inductive Status where
  | exit (code : Nat)
  | signal (number : Nat)
  deriving DecidableEq, Repr

namespace Status

def isSuccess : Status → Bool
  | exit code => code = 0
  | signal _ => false

def signalNames : List Text :=
  ["HUP", "INT", "QUIT", "ILL", "TRAP", "ABRT", "BUS", "FPE", "KILL", "USR1", "SEGV", "USR2",
    "PIPE", "ALRM", "TERM", "STKFLT", "CHLD", "CONT", "STOP", "TSTP", "TTIN", "TTOU", "URG", "XCPU",
    "XFSZ", "VTALRM", "PROF", "WINCH", "IO", "PWR", "SYS"].map String.toList

def signalName? (number : Nat) : Option Text :=
  if number = 0 then none else signalNames[number - 1]?

def text : Status → Text
  | exit code => "exit status: ".toList ++ Text.decimal code
  | signal number =>
    "signal: ".toList ++ Text.decimal number ++
      match signalName? number with
      | some name => " (SIG".toList ++ name ++ [')']
      | none => []

end Status

structure Outcome where
  stdout : Bytes
  stderr : Bytes
  status : Status
  deriving DecidableEq, Repr

namespace Outcome

def success (stdout : Bytes) : Outcome := ⟨stdout, [], .exit 0⟩

def andThen (first next : Outcome) : Outcome :=
  ⟨first.stdout ++ next.stdout, first.stderr ++ next.stderr,
    if first.status.isSuccess then next.status else first.status⟩

end Outcome

end PathSieve.Command
