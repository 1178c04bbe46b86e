import PathSieve.Regex.Parse
import PathSieve.Regex.Reach
import PathSieve.Regex.Weight

/-!
Regular expressions that are looked for in texts. One is read, resolved and measured before it is
used, so that looking for it cannot fail.
-/
namespace PathSieve

structure Regex where
  expression : Regex.Expression

namespace Regex

inductive Fault where
  | malformed
  | tooLarge
  | unsupported
  deriving DecidableEq, Repr

def Fault.message : Fault → Text
  | malformed => "regex parse error:".toList
  | tooLarge =>
    "Compiled regex exceeds size limit of ".toList ++ Text.decimal Expression.sizeLimit ++
      " bytes.".toList
  | unsupported => "error building NFA".toList

def fault? (e : Expression) : Option Fault :=
  if e.isTooLarge .forwards then some .tooLarge
  else if e.asksBeyondAscii then some .unsupported
  else if e.isTooLarge .backwards then some .tooLarge
  else none

def compile (s : Text) : Except Fault Regex :=
  match (parse s).bind Term.expression? with
  | none => .error .malformed
  | some e =>
    match fault? e with
    | some why => .error why
    | none => .ok ⟨e⟩

def occursIn (regex : Regex) (s : Text) : Bool := regex.expression.occursIn s

end Regex

end PathSieve
