import PathSieve.Command.Script
import PathSieve.Text.Digits

namespace PathSieve.Command.Script

inductive Token where
  | word (w : Word)
  | operator (name : Text)
  | newline
  | redirection (descriptor : Option Nat) (name : Text)
  | document (content : Word)
  | unterminated
  deriving DecidableEq, Repr

structure Lexeme where
  line : Nat
  token : Token
  deriving DecidableEq, Repr

def isNameStart (c : Char) : Bool := c.isAlpha || c = '_'

def isNameCharacter (c : Char) : Bool := c.isAlphanum || c = '_'

def isName : Text → Bool
  | [] => false
  | c :: s => isNameStart c && s.all isNameCharacter

def toParenthesis (quote : Option Char) (depth : Nat) : Text → Option (Text × Text)
  | [] => none
  | '\\' :: c :: s => (toParenthesis quote depth s).map fun (t, r) => ('\\' :: c :: t, r)
  | c :: s =>
    let go (quote : Option Char) (depth : Nat) : Option (Text × Text) :=
      (toParenthesis quote depth s).map fun (t, r) => (c :: t, r)
    match quote with
    | some q => go (if c = q then none else some q) depth
    | none =>
      if c = '\'' || c = '"' then go (some c) depth
      else if c = '(' then go none (depth + 1)
      else if c = ')' then
        match depth with
        | 0 => some ([], s)
        | depth + 1 => go none depth
      else go none depth

def toBackQuote : Text → Option (Text × Text)
  | [] => none
  | '\\' :: c :: s =>
    let kept := if c ∈ ['\x60', '\\', '$'] then [c] else ['\\', c]
    (toBackQuote s).map fun (t, r) => (kept ++ t, r)
  | c :: s => if c = '\x60' then some ([], s) else (toBackQuote s).map fun (t, r) => (c :: t, r)

def specialNames : List Char := ['@', '*', '#', '?', '$', '!', '-']

def takeName : Text → Text × Text
  | [] => ([], [])
  | c :: s =>
    if isNameStart c then ((c :: s).takeWhile isNameCharacter, s.dropWhile isNameCharacter)
    else if c.isDigit then ((c :: s).takeWhile Char.isDigit, s.dropWhile Char.isDigit)
    else if c ∈ specialNames then ([c], s)
    else ([], c :: s)

def fallback? (c : Char) : Option Fallback :=
  match c with
  | '-' => some .default
  | '=' => some .assigned
  | '+' => some .replacing
  | '?' => some .complaint
  | _ => none

def ofBraces (s : Text) : Expansion :=
  let (name, rest) := takeName s
  match name, rest with
  | ['#'], _ :: _ => .size rest
  | name, '%' :: '%' :: pattern => .trimmed name false true pattern
  | name, '%' :: pattern => .trimmed name false false pattern
  | name, '#' :: '#' :: pattern => .trimmed name true true pattern
  | name, '#' :: pattern => .trimmed name true false pattern
  | name, rest =>
    let needsContent := rest.head? == some ':'
    match if needsContent then rest.tail else rest with
    | c :: other =>
      match fallback? c with
      | some kind => .valueOr name kind needsContent other
      | none => .value name
    | [] => .value name

def expansion? : Text → Option (Expansion × Text)
  | '(' :: '(' :: s => (toParenthesis none 1 s).map fun (t, r) => (.number t.dropLast, r)
  | '(' :: s => (toParenthesis none 0 s).map fun (t, r) => (.output t, r)
  | '\x7b' :: s => some (ofBraces (s.takeWhile (· != '\x7d')), (s.dropWhile (· != '\x7d')).tail)
  | c :: s =>
    if c.isDigit then some (.value [c], s)
    else match takeName (c :: s) with
      | ([], _) => none
      | (name, r) => some (.value name, r)
  | [] => none

inductive Place where
  | bare
  | quotes
  | document
  deriving DecidableEq, Repr

namespace Place

def isQuoted (place : Place) : Bool := place != .bare

def isEscapable (place : Place) (c : Char) : Bool :=
  match place with
  | bare => true
  | quotes => c ∈ ['$', '"', '\\', '\x60']
  | document => c ∈ ['$', '\\', '\x60']

def ends (place : Place) (c : Char) : Bool :=
  place = .bare && c ∈ [' ', '\t', '\n', ';', '&', '|', '<', '>', '(', ')']

end Place

/-- Reads a word, whose parts so far are `acc`, latest first. -/
def readWord : (fuel : Nat) → Place → (acc : Word) → Text → Option (Word × Text)
  | 0, _, _, _ => none
  | _ + 1, place, acc, [] => if place = .quotes then none else some (acc.reverse, [])
  | fuel + 1, place, acc, c :: s =>
    let text (t : Text) (isQuoted : Bool) := Segment.text t isQuoted :: acc
    if place.ends c then some (acc.reverse, c :: s)
    else if c = '\\' then
      match s with
      | [] => readWord fuel place (text [c] true) []
      | d :: s =>
        if d = '\n' then readWord fuel place acc s
        else if place.isEscapable d then readWord fuel place (text [d] true) s
        else readWord fuel place (text [c, d] true) s
    else if c = '$' then
      match expansion? s with
      | some (e, s) => readWord fuel place (.expansion e place.isQuoted :: acc) s
      | none => readWord fuel place (text [c] place.isQuoted) s
    else if c = '\x60' then do
      let (script, s) ← toBackQuote s
      readWord fuel place (.expansion (.output script) place.isQuoted :: acc) s
    else if c = '\'' && place = .bare then
      match s.dropWhile (· != '\'') with
      | [] => none
      | _ :: r => readWord fuel place (text (s.takeWhile (· != '\'')) true) r
    else if c = '"' && place = .bare then do
      let (inner, s) ← readWord fuel .quotes [] s
      let inner := if inner.isEmpty then [.text [] true] else inner
      readWord fuel place (inner.reverse ++ acc) s
    else if c = '"' && place = .quotes then some (acc.reverse, s)
    else readWord fuel place (text [c] place.isQuoted) s

def word (place : Place) (s : Text) : Option (Word × Text) :=
  readWord (2 * s.length + 2) place [] s

def documentLines (dropsTabs : Bool) (mark : Text) : List Text → List Text × Nat
  | [] => ([], 0)
  | l :: ls =>
    let l := if dropsTabs then l.dropWhile (· == '\t') else l
    if l = mark then ([], 1)
    else
      let (inside, count) := documentLines dropsTabs mark ls
      (l :: inside, count + 1)

def markOf (w : Word) : Text :=
  w.flatMap fun
    | .text s _ => s
    | .expansion _ _ => []

def isAnyQuoted (w : Word) : Bool :=
  w.any fun
    | .text _ isQuoted => isQuoted
    | .expansion _ _ => false

def document (dropsTabs : Bool) (mark : Word) (below : List Text) : Word × Nat :=
  let (inside, count) := documentLines dropsTabs (markOf mark) below
  let content := inside.flatMap (· ++ ['\n'])
  if isAnyQuoted mark then ([.text content true], count)
  else (((word .document content).map (·.1)).getD [], count)

def linesOf (s : Text) : List Text := Text.splitOn (· == '\n') s

def dropLines (count : Nat) (s : Text) : Text :=
  if count = 0 then s else Text.join ['\n'] ((linesOf s).drop count)

def operators : List Text :=
  ["&&", "||", ";;", "&", "|", ";", "(", ")"].map String.toList

def redirectors : List Text := [">>", ">&", ">|", "<&", "<>", ">", "<"].map String.toList

def symbol? (symbols : List Text) (s : Text) : Option (Text × Text) :=
  (symbols.find? (·.isPrefixOf s)).map fun symbol => (symbol, s.drop symbol.length)

def lex : (fuel line taken : Nat) → Text → List Lexeme
  | 0, _, _, _ | _, _, _, [] => []
  | fuel + 1, line, taken, c :: s =>
    let redirected (descriptor : Option Nat) (s : Text) : List Lexeme :=
      match symbol? redirectors s with
      | some (name, r) => ⟨line, .redirection descriptor name⟩ :: lex fuel line taken r
      | none => []
    let documented (dropsTabs : Bool) (s : Text) : List Lexeme :=
      match word .bare (s.dropWhile (· == ' ')) with
      | none => [⟨line, .unterminated⟩]
      | some (mark, r) =>
        let (content, count) := document dropsTabs mark ((linesOf r).tail.drop taken)
        ⟨line, .document content⟩ :: lex fuel line (taken + count) r
    if c = ' ' || c = '\t' then lex fuel line taken s
    else if c = '\n' then
      ⟨line, .newline⟩ :: lex fuel (line + taken + 1) 0 (dropLines taken s)
    else if c = '#' then lex fuel line taken (s.dropWhile (· != '\n'))
    else if ['\\', '\n'].isPrefixOf (c :: s) then lex fuel (line + 1) taken s.tail
    else if "<<-".toList.isPrefixOf (c :: s) then documented true (s.drop 2)
    else if "<<".toList.isPrefixOf (c :: s) then documented false (s.drop 1)
    else if c = '<' || c = '>' then redirected none (c :: s)
    else if c.isDigit && (s.head? == some '<' || s.head? == some '>') then
      redirected (Text.decimalDigit? c) s
    else match symbol? operators (c :: s) with
      | some (name, r) => ⟨line, .operator name⟩ :: lex fuel line taken r
      | none =>
        match word .bare (c :: s) with
        | none => [⟨line + s.count '\n', .unterminated⟩]
        | some (w, r) =>
          let consumed := (c :: s).take (s.length + 1 - r.length)
          ⟨line, .word w⟩ :: lex fuel (line + consumed.count '\n') taken r

def lexemes (script : Text) : List Lexeme := lex (script.length + 1) 1 0 script

end PathSieve.Command.Script
