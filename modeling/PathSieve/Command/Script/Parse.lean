import PathSieve.Command.Script.Lex

/-!
The commands of a shell script. A script is read line by line, so the lines before a fault are
commands all the same.
-/
namespace PathSieve.Command.Script

abbrev Lexemes := List Lexeme

def keywords : List Text :=
  ["if", "then", "elif", "else", "fi", "for", "do", "done", "while", "until", "\x7b", "\x7d", "!",
    "case", "esac"].map String.toList

def keyword? : Lexemes → Option Text
  | ⟨_, .word w⟩ :: _ => (plain? w).filter (· ∈ keywords)
  | _ => none

def isKeyword (s : String) (ls : Lexemes) : Bool := keyword? ls == some s.toList

def isOperator (s : String) : Lexemes → Bool
  | ⟨_, .operator name⟩ :: _ => name == s.toList
  | _ => false

def isNewline : Lexemes → Bool
  | ⟨_, .newline⟩ :: _ => true
  | _ => false

def skipNewlines (ls : Lexemes) : Lexemes := ls.dropWhile (·.token == .newline)

def unterminated : Text := "Unterminated quoted string".toList

def inQuotes (s : Text) : Text := '"' :: s ++ ['"']

def describe (ls : Lexemes) : Text :=
  match keyword? ls, ls with
  | some k, _ => inQuotes k
  | none, [] => "end of file".toList
  | none, ⟨_, .word _⟩ :: _ => "word".toList
  | none, ⟨_, .operator name⟩ :: _ => inQuotes name
  | none, ⟨_, .newline⟩ :: _ => "newline".toList
  | none, _ => "redirection".toList

def unexpected (last : Nat) (expected : Option Text) (ls : Lexemes) : Fault :=
  let line := (ls.head?.map (·.line)).getD last
  match ls with
  | ⟨_, .unterminated⟩ :: _ => ⟨line, unterminated⟩
  | ls =>
    let hint := match expected with
      | some s => " (expecting ".toList ++ inQuotes s ++ [')']
      | none => []
    ⟨line, describe ls ++ " unexpected".toList ++ hint⟩

def expect (last : Nat) (s : String) (ls : Lexemes) : Except Fault Lexemes :=
  if isKeyword s ls || isOperator s ls then .ok ls.tail
  else .error (unexpected last (some s.toList) ls)

def expectWord (last : Nat) (s : String) (ls : Lexemes) : Except Fault Lexemes :=
  match ls with
  | ⟨_, .word w⟩ :: rest =>
    if plain? w = some s.toList then .ok rest else .error (unexpected last (some s.toList) ls)
  | ls => .error (unexpected last (some s.toList) ls)

def patternsOf : Lexemes → List Word × Lexemes
  | ⟨_, .word w⟩ :: ls =>
    match ls with
    | ⟨_, .operator ['|']⟩ :: ls => (w :: (patternsOf ls).1, (patternsOf ls).2)
    | ls => ([w], ls)
  | ls => ([], ls)

def redirectionOf? (descriptor : Option Nat) (name : Text) (w : Word) : Option Redirection :=
  let target (isInput : Bool) : Option Redirection :=
    match (plain? w).bind Text.ofDecimal? with
    | some n => some (.toDescriptor (descriptor.getD (if isInput then 0 else 1)) n)
    | none => none
  match String.ofList name with
  | ">" | ">|" => some (.toFile (descriptor.getD 1) false w)
  | ">>" => some (.toFile (descriptor.getD 1) true w)
  | "<" => some (.fromFile w)
  | ">&" => target false
  | "<&" => target true
  | _ => none

def assignment? (w : Word) : Option (Text × Word) :=
  let isText : Segment → Bool
    | .text _ false => true
    | _ => false
  let front := ((w.takeWhile isText).filterMap Segment.plain?).flatten
  let name := front.takeWhile (· != '=')
  if isName name && name.length < front.length then
    some (name, .text (front.drop (name.length + 1)) false :: w.dropWhile isText)
  else none

structure Draft where
  assignments : List (Text × Word) := []
  words : List Word := []
  redirections : List Redirection := []

def Draft.add (d : Draft) (w : Word) : Draft :=
  match if d.words.isEmpty then assignment? w else none with
  | some a => { d with assignments := a :: d.assignments }
  | none => { d with words := w :: d.words }

def redirect (node : Node) (redirections : List Redirection) : Node :=
  if redirections.isEmpty then node else .redirected node redirections

def Draft.node (d : Draft) (line : Nat) : Node :=
  redirect (.simple line d.assignments.reverse d.words.reverse) d.redirections.reverse

def Draft.name? (d : Draft) : Option Text :=
  match d with
  | ⟨[], [w], []⟩ => plain? w
  | _ => none

def readDraft (last : Nat) (takesWords : Bool) (d : Draft) :
    Lexemes → Except Fault (Draft × Lexemes)
  | ⟨_, .redirection descriptor name⟩ :: ⟨line, .word w⟩ :: ls =>
    match redirectionOf? descriptor name w with
    | some r => readDraft last takesWords { d with redirections := r :: d.redirections } ls
    | none => .error ⟨line, "Bad fd number".toList⟩
  | ⟨_, .redirection _ _⟩ :: ls => .error (unexpected last none ls)
  | ⟨_, .document content⟩ :: ls =>
    readDraft last takesWords { d with redirections := .fromText content :: d.redirections } ls
  | ⟨line, .word w⟩ :: ls =>
    if takesWords then readDraft last takesWords (d.add w) ls else .ok (d, ⟨line, .word w⟩ :: ls)
  | ls => .ok (d, ls)

def wordsOf : Lexemes → List Word × Lexemes
  | ⟨_, .word w⟩ :: ls => (w :: (wordsOf ls).1, (wordsOf ls).2)
  | ls => ([], ls)

def ofNodes : List Node → Node
  | [node] => node
  | nodes => .sequence nodes

def allArguments : List Word := [[.expansion (.value ['@']) true]]

mutual

def readBody (last : Nat) : (fuel : Nat) → Lexemes → Except Fault (List Node × Lexemes)
  | 0, ls => .error (unexpected last none ls)
  | fuel + 1, ls => do
    let ls := skipNewlines ls
    let stops := ["then", "elif", "else", "fi", "do", "done", "\x7d", "esac"]
    if ls.isEmpty || stops.any (isKeyword · ls) || isOperator ")" ls || isOperator ";;" ls then
      return ([], ls)
    let (node, ls) ← readJoined last fuel ls
    if isNewline ls || isOperator ";" ls || isOperator "&" ls then
      let (nodes, ls) ← readBody last fuel ls.tail
      return (node :: nodes, ls)
    return ([node], ls)

def readJoined (last : Nat) : (fuel : Nat) → Lexemes → Except Fault (Node × Lexemes)
  | 0, ls => .error (unexpected last none ls)
  | fuel + 1, ls => do
    let (node, ls) ← readPipeline last fuel ls
    readMore last fuel node ls

def readMore (last : Nat) : (fuel : Nat) → Node → Lexemes → Except Fault (Node × Lexemes)
  | 0, _, ls => .error (unexpected last none ls)
  | fuel + 1, left, ls => do
    let join (condition : Condition) : Except Fault (Node × Lexemes) := do
      let (right, ls) ← readPipeline last fuel (skipNewlines ls.tail)
      readMore last fuel (.joined condition left right) ls
    if isOperator "&&" ls then join .onSuccess
    else if isOperator "||" ls then join .onFailure
    else return (left, ls)

def readPipeline (last : Nat) : (fuel : Nat) → Lexemes → Except Fault (Node × Lexemes)
  | 0, ls => .error (unexpected last none ls)
  | fuel + 1, ls => do
    let isNegated := isKeyword "!" ls
    let (stages, ls) ← readStages last fuel (if isNegated then ls.tail else ls)
    match isNegated, stages with
    | false, [stage] => return (stage, ls)
    | isNegated, stages => return (.pipeline isNegated stages, ls)

def readStages (last : Nat) : (fuel : Nat) → Lexemes → Except Fault (List Node × Lexemes)
  | 0, ls => .error (unexpected last none ls)
  | fuel + 1, ls => do
    let (stage, ls) ← readCommand last fuel ls
    if isOperator "|" ls then
      let (stages, ls) ← readStages last fuel (skipNewlines ls.tail)
      return (stage :: stages, ls)
    return ([stage], ls)

def readCommand (last : Nat) : (fuel : Nat) → Lexemes → Except Fault (Node × Lexemes)
  | 0, ls => .error (unexpected last none ls)
  | fuel + 1, ls => do
    let line := (ls.head?.map (·.line)).getD last
    let body (ls : Lexemes) : Except Fault (Node × Lexemes) := do
      let (nodes, ls) ← readBody last fuel ls
      if nodes.isEmpty then throw (unexpected last none ls)
      return (ofNodes nodes, ls)
    let finish (node : Node) (ls : Lexemes) : Except Fault (Node × Lexemes) := do
      let (draft, ls) ← readDraft last false {} ls
      return (redirect node draft.redirections.reverse, ls)
    if isOperator "(" ls then
      let (inner, ls) ← body ls.tail
      finish (.subshell inner) (← expect last ")" ls)
    else if isKeyword "\x7b" ls then
      let (inner, ls) ← body ls.tail
      finish inner (← expect last "\x7d" ls)
    else if isKeyword "if" ls then
      let (node, ls) ← readBranch last fuel ls.tail
      finish node ls
    else if isKeyword "while" ls || isKeyword "until" ls then
      let (condition, rest) ← body ls.tail
      let (inner, rest) ← body (← expect last "do" rest)
      finish (.loop (isKeyword "until" ls) condition inner) (← expect last "done" rest)
    else if isKeyword "for" ls then
      match ls.tail with
      | ⟨_, .word w⟩ :: ls =>
        match (plain? w).filter isName with
        | none => throw ⟨line, "Bad for loop variable".toList⟩
        | some name =>
          let (words, ls) := match skipNewlines ls with
            | ⟨_, .word i⟩ :: rest =>
              if plain? i = some "in".toList then wordsOf rest else (allArguments, ls)
            | _ => (allArguments, ls)
          let ls := skipNewlines (if isOperator ";" ls then ls.tail else ls)
          let (inner, ls) ← body (← expect last "do" ls)
          finish (.forEach name words inner) (← expect last "done" ls)
      | _ => throw ⟨line, "Bad for loop variable".toList⟩
    else if isKeyword "case" ls then
      match ls.tail with
      | ⟨_, .word w⟩ :: ls =>
        let ls ← expectWord last "in" (skipNewlines ls)
        let (cases, ls) ← readCases last fuel (skipNewlines ls)
        finish (.choose w cases) (← expect last "esac" ls)
      | ls => throw (unexpected last none ls)
    else if (keyword? ls).isSome then throw (unexpected last none ls)
    else
      let (draft, rest) ← readDraft last true {} ls
      match draft.name?, isOperator "(" rest && isOperator ")" rest.tail with
      | some name, true =>
        let (body, ls) ← readCommand last fuel (skipNewlines (rest.drop 2))
        return (.define name body, ls)
      | _, _ =>
        if draft.words.isEmpty && draft.assignments.isEmpty && draft.redirections.isEmpty then
          throw (unexpected last none rest)
        return (draft.node line, rest)

def readCases (last : Nat) :
    (fuel : Nat) → Lexemes → Except Fault (List (List Word × Node) × Lexemes)
  | 0, ls => .error (unexpected last none ls)
  | fuel + 1, ls => do
    if isKeyword "esac" ls || ls.isEmpty then return ([], ls)
    let (patterns, ls) := patternsOf (if isOperator "(" ls then ls.tail else ls)
    let (nodes, ls) ← readBody last fuel (← expect last ")" ls)
    let found := (patterns, ofNodes nodes)
    if isOperator ";;" ls then
      let (cases, ls) ← readCases last fuel (skipNewlines ls.tail)
      return (found :: cases, ls)
    return ([found], ls)

def readBranch (last : Nat) : (fuel : Nat) → Lexemes → Except Fault (Node × Lexemes)
  | 0, ls => .error (unexpected last none ls)
  | fuel + 1, ls => do
    let (condition, ls) ← readBody last fuel ls
    let (inner, ls) ← readBody last fuel (← expect last "then" ls)
    if isKeyword "elif" ls then
      let (otherwise, ls) ← readBranch last fuel ls.tail
      return (.branch (ofNodes condition) (ofNodes inner) otherwise, ls)
    let hasOther := isKeyword "else" ls
    let (otherwise, ls) ← if hasOther then readBody last fuel ls.tail else pure ([], ls)
    let ls ← expect last "fi" ls
    return (.branch (ofNodes condition) (ofNodes inner) (ofNodes otherwise), ls)

end

def readLine (last : Nat) : (fuel : Nat) → Lexemes → Except Fault (List Node × Lexemes)
  | 0, ls => .error (unexpected last none ls)
  | fuel + 1, ls => do
    let (node, ls) ← readJoined last fuel ls
    if isOperator ";" ls || isOperator "&" ls then
      if ls.tail.isEmpty || isNewline ls.tail then return ([node], ls.tail.tail)
      let (nodes, ls) ← readLine last fuel ls.tail
      return (node :: nodes, ls)
    else if ls.isEmpty || isNewline ls then return ([node], ls.tail)
    else throw (unexpected last none ls)

def readLines (last : Nat) : (fuel : Nat) → Lexemes → List Node × Option Fault
  | 0, _ => ([], none)
  | fuel + 1, ls =>
    let ls := skipNewlines ls
    if ls.isEmpty then ([], none)
    else match readLine last (10 * ls.length + 10) ls with
      | .error fault => ([], some fault)
      | .ok (nodes, ls) =>
        let (more, fault) := readLines last fuel ls
        (nodes ++ more, fault)

def parse (script : Text) : List Node × Option Fault :=
  let ls := lexemes script
  readLines (script.count '\n' + 1) (ls.length + 1) ls

end PathSieve.Command.Script
