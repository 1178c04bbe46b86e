import PathSieve.Glob.Piece

/-!
The tokens of a pattern. Braces enclose branches separated by commas, and a `**` that stands alone
between slashes is one token together with the slashes around it; any other `**` is two stars.
-/
namespace PathSieve.Glob

inductive Token where
  | literal (c : Char)
  | anyByte
  | anyRun
  -- A `**` in front: nothing, or anything that ends in a slash.
  | dirsBefore
  -- A `**` at the end: a slash and anything after it.
  | allBelow
  -- A `**` in between: a slash, or anything that starts and ends in one.
  | dirsBetween
  | member (negated : Bool) (ranges : List (Char × Char))
  | choice (branches : List (List Token))

/-- Braces that are open: the tokens before them and the branches that are complete, both latest
first. -/
structure Group where
  outer : List Token
  branches : List (List Token)

/-- Puts a `**` between slashes after the tokens `ts`, latest first. The slash that it follows is
the token it replaces; another `**` just before it covers it already. -/
def joinDirs (atEnd : Bool) : List Token → List Token
  | .dirsBefore :: ts => .dirsBefore :: ts
  | .allBelow :: ts => .allBelow :: ts
  | _ :: ts => (if atEnd then .allBelow else .dirsBetween) :: ts
  | [] => []

inductive Stars where
  | twoRuns
  | before
  | between
  | below

def Stars.of (previous : Option Char) (inGroup : Bool) (atStart : Bool) (rest : List Piece) :
    Stars :=
  if atStart then
    match rest.head? with
    | none | some (.plain '/') => before
    | _ => twoRuns
  else if previous = some '/' || (inGroup && (previous = some ',' || previous = some '\x7b')) then
    match rest.head? with
    | none => below
    | some (.plain '/') => between
    | some (.plain c) => if inGroup && (c = ',' || c = '\x7d') then below else twoRuns
    | _ => twoRuns
  else twoRuns

def Stars.apply : Stars → List Token → List Token
  | twoRuns, ts => .anyRun :: .anyRun :: ts
  | before, ts => .dirsBefore :: ts
  | between, ts => joinDirs false ts
  | below, ts => joinDirs true ts

def Stars.takesSlash : Stars → Bool
  | before | between => true
  | twoRuns | below => false

/-- Reads pieces into tokens. `groups` are the open braces, innermost first, and `tokens` what has
been read inside the innermost, latest first. `fault` is what ends the pieces, if anything. -/
def build (fault : Option Fault) (previous : Option Char) (groups : List Group)
    (tokens : List Token) : List Piece → Except Fault (List Token)
  | [] =>
    match fault with
    | some why => .error why
    | none => if groups.isEmpty then .ok tokens.reverse else .error .unclosedGroup
  | .plain '*' :: .plain '*' :: .plain '/' :: rest =>
    let stars := Stars.of previous (!groups.isEmpty) tokens.isEmpty [.plain '/']
    if stars.takesSlash then build fault (some '/') groups (stars.apply tokens) rest
    else build fault (some '/') groups (.literal '/' :: stars.apply tokens) rest
  | .plain '*' :: .plain '*' :: rest =>
    let stars := Stars.of previous (!groups.isEmpty) tokens.isEmpty rest
    build fault (some '*') groups (stars.apply tokens) rest
  | .plain c :: rest =>
    if c = '?' then build fault (some c) groups (.anyByte :: tokens) rest
    else if c = '*' then build fault (some c) groups (.anyRun :: tokens) rest
    else if c = '\x7b' then build fault (some c) (⟨tokens, []⟩ :: groups) [] rest
    else if c = '\x7d' then
      match groups with
      | [] => .error .unopenedGroup
      | g :: groups =>
        let branches := (tokens.reverse :: g.branches).reverse
        build fault (some c) groups (.choice branches :: g.outer) rest
    else if c = ',' then
      match groups with
      | [] => build fault (some c) [] (.literal c :: tokens) rest
      | g :: groups =>
        build fault (some c) (⟨g.outer, tokens.reverse :: g.branches⟩ :: groups) [] rest
    else build fault (some c) groups (.literal c :: tokens) rest
  | .escaped c :: rest => build fault (some c) groups (.literal c :: tokens) rest
  | .members negated ranges :: rest =>
    build fault (some ']') groups (.member negated ranges :: tokens) rest

def parse (pattern : Text) : Except Fault (List Token) :=
  let (ps, fault) := pieces pattern
  build fault none [] [] ps

theorem build_nil (previous : Option Char) (groups : List Group) (tokens : List Token) :
    build none previous groups tokens [] =
      if groups.isEmpty then .ok tokens.reverse else .error .unclosedGroup := by
  rw [build]

end PathSieve.Glob
