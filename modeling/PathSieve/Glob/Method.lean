import PathSieve.Glob.Reach

/-!
How a pattern is decided. A pattern whose end is a plain name or extension is compared with the last
component of the path, other plain patterns with the path itself, and the rest become regular
expressions. All agree with `covers` but for one thing: a path that ends in the component `..` names
no file, so no pattern that is decided by a plain name or extension accepts it.
-/
namespace PathSieve.Glob

def literals? : List Token → Option Text
  | [] => some []
  | .literal c :: ts => (literals? ts).map (c :: ·)
  | _ => none

inductive Method where
  | name (s : Text)
  | whole (s : Text)
  | extension (s : Text)
  | front (s : Text)
  | back (s : Text) (isComponents : Bool)
  | extensionAnd (s : Text)
  | nameExpression
  | expression
  deriving DecidableEq, Repr

namespace Method

def name? : List Token → Option Text
  | .dirsBefore :: ts => (literals? ts).filter fun s => !s.isEmpty && !s.contains '/'
  | _ => none

def whole? (tokens : List Token) : Option Text := (literals? tokens).filter (!·.isEmpty)

def afterDirs : List Token → List Token
  | .dirsBefore :: ts => ts
  | ts => ts

def extension? (tokens : List Token) : Option Text :=
  match afterDirs tokens with
  | .anyRun :: .literal '.' :: ts =>
    ((literals? ts).filter fun s => !s.contains '.' && !s.contains '/').map ('.' :: ·)
  | _ => none

def front? (tokens : List Token) : Option Text :=
  match tokens.getLast? with
  | some .anyRun => (literals? tokens.dropLast).filter (!·.isEmpty)
  | some .allBelow => (literals? tokens.dropLast).map (· ++ ['/'])
  | _ => none

def back? : List Token → Option (Text × Bool)
  | .dirsBefore :: .literal c :: ts => (literals? ts).map fun s => ('/' :: c :: s, true)
  | tokens =>
    let rest := match afterDirs tokens with
      | .anyRun :: ts => ts
      | ts => ts
    ((literals? rest).filter fun s => !s.isEmpty && s != ['/']).map (·, false)

def lastExtension? : List Token → Option Text
  | .literal c :: ts =>
    if c = '/' then none else if c = '.' then some [c] else (lastExtension? ts).map (· ++ [c])
  | _ => none

def isInName : Token → Bool
  | .literal c => c != '/'
  | .member negated ranges => !isMember negated ranges Path.slash
  | _ => false

def isNameExpression : List Token → Bool
  | .dirsBefore :: ts => !ts.isEmpty && ts.all isInName
  | _ => false

def ofTokens (tokens : List Token) : Method :=
  let plain := (name? tokens).map name <|> (whole? tokens).map whole <|>
    (extension? tokens).map extension <|> (front? tokens).map front <|>
    (back? tokens).map (fun (s, b) => back s b) <|>
    (lastExtension? tokens.reverse).map extensionAnd
  plain.getD (if isNameExpression tokens then nameExpression else expression)

-- An expression for the last component is not among them: it is tried on a `..`, too.
def isByName : Method → Bool
  | name _ | extension _ | extensionAnd _ => true
  | _ => false

def needsExtension : Method → Bool
  | extensionAnd _ => true
  | _ => false

end Method

structure Pattern where
  source : Text
  tokens : List Token

def Pattern.method (pattern : Pattern) : Method := .ofTokens pattern.tokens

def endsInParent (path : Bytes) : Bool :=
  (Text.splitOn (· == Path.slash) path).getLast? == some [Path.dot, Path.dot]

-- Whether a pattern accepts a path. A pattern that is nothing but `**` accepts every path.
def accepts (tokens : List Token) (path : Bytes) : Bool :=
  match tokens with
  | [.dirsBefore] => true
  | _ => covers tokens path && !((Method.ofTokens tokens).isByName && endsInParent path)

end PathSieve.Glob
