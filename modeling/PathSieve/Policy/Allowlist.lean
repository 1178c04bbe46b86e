import PathSieve.Glob.Survey
import PathSieve.Glob.Weight

/-!
Allowlists: paths that match one of a list of patterns as a whole. A list is compiled before it is
used, so that evaluation cannot fail; `PatternError` says why a list does not compile.
-/
namespace PathSieve

inductive PatternError where
  | malformed (pattern : Text) (why : Glob.Fault)
  /-- The braces of a pattern nest too deep. Patterns that become regular expressions are counted
  by `index`; one that is compared by its extension is reported with its own expression. -/
  | tooDeep (expression : Option Text) (index : Nat)
  | tooLarge (expression : Option Text)
  deriving DecidableEq, Repr

namespace PatternError

def faultText : Glob.Fault → Text
  | .danglingEscape => "dangling '\\'".toList
  | .unclosedClass => "unclosed character class; missing ']'".toList
  | .reversedRange low high => "invalid range; '".toList ++ low :: "' > '".toList ++ [high, '\'']
  | .unopenedGroup =>
    "unopened alternate group; missing '\x7b' (maybe escape '\x7d' with '[\x7d]'?)".toList
  | .unclosedGroup =>
    "unclosed alternate group; missing '\x7d' (maybe escape '\x7b' with '[\x7b]'?)".toList

def inGlob (glob message : Text) : Text :=
  "error parsing glob '".toList ++ glob ++ "': ".toList ++ message

def unbuilt (expression : Option Text) (message : Text) : Text :=
  "failed to build allowlist: ".toList ++
    match expression with
    | some e => inGlob e message
    | none => message

def message : PatternError → Text
  | malformed pattern why =>
    '\'' :: pattern ++ "': ".toList ++ inGlob pattern (faultText why)
  | tooDeep expression index =>
    unbuilt expression ("error parsing pattern ".toList ++ Text.decimal index)
  | tooLarge expression => unbuilt expression "error building NFA".toList

end PatternError

structure Allowlist where
  globs : List Glob.Pattern

namespace Allowlist

open Glob

def parseAll (patterns : List Text) : Except PatternError (List Pattern) :=
  patterns.mapM fun source =>
    match parse source with
    | .ok tokens => .ok ⟨source, tokens⟩
    | .error why => .error (.malformed source why)

def isTooDeep (pattern : Pattern) : Bool := depthLimit < depth pattern.tokens

def isTooLarge (patterns : List Pattern) : Bool := Glob.isTooLarge (patterns.map (·.tokens))

def singleError? (pattern : Pattern) : Option PatternError :=
  if isTooDeep pattern then some (.tooDeep (some (expression pattern.tokens)) 0)
  else if isTooLarge [pattern] then some (.tooLarge (some (expression pattern.tokens)))
  else none

def setError? (patterns : List Pattern) : Option PatternError :=
  match patterns.findIdx? isTooDeep with
  | some index => some (.tooDeep none index)
  | none => if isTooLarge patterns then some (.tooLarge none) else none

/-- Patterns compared by their extension have an expression each. Those that need no more than the
name are tried together, and so are the rest. -/
def limitError? (globs : List Pattern) : Option PatternError :=
  (globs.filter (·.method.needsExtension)).findSome? singleError? <|>
    setError? (globs.filter (·.method == .nameExpression)) <|>
    setError? (globs.filter (·.method == .expression))

def compile (patterns : List Text) : Except PatternError Allowlist := do
  let globs ← parseAll patterns
  match limitError? globs with
  | some e => .error e
  | none => .ok ⟨globs⟩

def entries (patterns : List Text) : List Log.Entry :=
  match parseAll patterns with
  | .ok globs => survey globs
  | .error _ => []

-- The empty path, which is the root of a listing, is never accepted.
def accepts (list : Allowlist) (path : Text) : Bool :=
  !path.isEmpty && list.globs.any fun g => Glob.accepts g.tokens (Utf8.encode path)

def defaultPatterns : List Text :=
  ["deploy/*", "hack/*", "integration_test/*", "internal/*", "packages/*", "pkg/*",
    "rpm-prefetching/*", "Dockerfile.*", "Makefile", "go.mod", "go.sum", ".dockerignore",
    "build_deploy.sh", "main.go", "renovate.json"].map String.toList

end Allowlist

end PathSieve
