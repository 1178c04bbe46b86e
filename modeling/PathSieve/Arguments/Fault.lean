import PathSieve.Arguments
import PathSieve.Arguments.Number
import PathSieve.Terminal.Styled

namespace PathSieve.Arguments

open Terminal (Span Styled)

inductive Fault where
  | missingValue (parameter : Parameter)
  | badValue (parameter : Parameter) (value : Text)
  | badNumber (parameter : Parameter) (value : Text) (why : NumberFault)
  | notUtf8
  | surplusValue (parameter : Parameter) (value : Text)
  | unknown (argument : Text)
  | repeated (parameter : Parameter)
  | conflict (first second : Parameter)
  deriving DecidableEq, Repr

namespace Fault

def plain (s : String) : Span := .plain s.toList

def blames (s : Text) : Span := ⟨.invalid, s⟩

def names (p : Parameter) : Span := ⟨.literal, p.usage⟩

def message : Fault → Styled
  | missingValue p =>
    [plain "a value is required for '", blames p.usage, plain "' but none was supplied"]
  | badValue p value => [plain "invalid value '", blames value, plain "' for '", names p, plain "'"]
  | badNumber p value why =>
    [plain "invalid value '", blames value, plain "' for '", names p, plain "': ",
      .plain why.message]
  | notUtf8 => [plain "invalid UTF-8 was detected in one or more arguments"]
  | surplusValue p value =>
    [plain "unexpected value '", blames value, plain "' for '", names p,
      plain "' found; no more were expected"]
  | unknown argument => [plain "unexpected argument '", blames argument, plain "' found"]
  | repeated p => [plain "the argument '", blames p.usage, plain "' cannot be used multiple times"]
  | conflict p q =>
    [plain "the argument '", blames p.usage, plain "' cannot be used with '", blames q.usage,
      plain "'"]

def report (fault : Fault) : Styled := ⟨.error, "error:".toList⟩ :: plain " " :: fault.message

end Fault

end PathSieve.Arguments
