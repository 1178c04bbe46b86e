import PathSieve.Glob.Expression
import PathSieve.Glob.Method
import PathSieve.Log
import PathSieve.Text.Quoted

namespace PathSieve.Glob

def entry (message : Text) : Log.Entry := ⟨.debug, .patterns, message⟩

def conversion (source : Text) (kind : String) (expression : Text) : Log.Entry :=
  entry ("glob `Glob(".toList ++ Quoted.quote source ++ ")` converted to ".toList ++
    kind.toList ++ ": `".toList ++ Quoted.quote expression ++ ['`'])

def Pattern.conversion? (pattern : Pattern) : Option Log.Entry :=
  match pattern.method with
  | .expression => some (conversion pattern.source "regex" (expression pattern.tokens))
  | .nameExpression =>
    some (conversion pattern.source "basename regex" (expression pattern.tokens.tail))
  | _ => none

def distinct (texts : List Text) : Nat := texts.eraseDups.length

def counts (methods : List Method) : List (Nat × String) :=
  let wholes := methods.filterMap fun
    | .whole s => some s
    | .back (_ :: s) true => some s
    | _ => none
  let names := methods.filterMap fun
    | .name s => some s
    | _ => none
  let extensions := methods.filterMap fun
    | .extension s => some s
    | _ => none
  let needed := methods.filterMap fun
    | .extensionAnd s => some s
    | _ => none
  let isFront : Method → Bool
    | .front _ => true
    | _ => false
  let isBack : Method → Bool
    | .back _ _ => true
    | _ => false
  [(distinct wholes, "literals"), (distinct names, "basenames"),
    (distinct extensions, "extensions"),
    (methods.countP isFront, "prefixes"), (methods.countP isBack, "suffixes"),
    (distinct needed, "required extensions"),
    (methods.countP (· == .nameExpression), "basename regexes"),
    (methods.countP (· == .expression), "regexes")]

def summary (methods : List Method) : Log.Entry :=
  let item (count : Nat × String) : Text := Text.decimal count.1 ++ ' ' :: count.2.toList
  entry ("built glob set; ".toList ++ Text.join [',', ' '] ((counts methods).map item))

def survey (patterns : List Pattern) : List Log.Entry :=
  if patterns.isEmpty then []
  else patterns.filterMap Pattern.conversion? ++ [summary (patterns.map Pattern.method)]

end PathSieve.Glob
