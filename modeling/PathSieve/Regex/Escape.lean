import PathSieve.Regex.Term
import PathSieve.Text.Blank
import PathSieve.Text.Digits

namespace PathSieve.Regex

def skipBlanks (inComment : Bool) : Text → Text
  | [] => []
  | c :: s =>
    if inComment then skipBlanks (c != '\n') s
    else if Text.isBlank c then skipBlanks false s
    else if c = '#' then skipBlanks true s
    else c :: s

def next (isLoose : Bool) (s : Text) : Text := if isLoose then skipBlanks false s else s

def toBrace (isLoose inComment : Bool) : Text → Option (Text × Text)
  | [] => none
  | c :: s =>
    if inComment then toBrace isLoose (c != '\n') s
    else if isLoose && Text.isBlank c then toBrace isLoose false s
    else if isLoose && c = '#' then toBrace isLoose true s
    else if c = '\x7d' then some ([], s)
    else (toBrace isLoose false s).map fun (t, r) => (c :: t, r)

inductive Atom where
  | literal (c : Literal)
  | anchor (a : Anchor)
  | shorthand (isNegated : Bool) (kind : Shorthand)
  deriving DecidableEq, Repr

def hexDigits (isLoose : Bool) : (count : Nat) → Text → Option (Text × Text)
  | 0, s => some ([], s)
  | count + 1, s =>
    match next isLoose s with
    | [] => none
    | c :: s => (hexDigits isLoose count s).map fun (t, r) => (c :: t, r)

def numbered (isLoose : Bool) (count : Nat) (s : Text) : Option (Atom × Text) :=
  match next isLoose s with
  | '\x7b' :: s => do
    let (digits, r) ← toBrace isLoose false s
    if digits.isEmpty then none else some (.literal ⟨← Text.scalar? digits, false⟩, r)
  | s => do
    let (digits, r) ← hexDigits isLoose count s
    some (.literal ⟨← Text.scalar? digits, count = 2⟩, r)

def namedAnchors : List (String × Anchor) :=
  [("start", .wordStart), ("end", .wordEnd), ("start-half", .wordStartHalf),
    ("end-half", .wordEndHalf)]

def isLetter (c : Char) : Bool := ('a' ≤ c && c ≤ 'z') || ('A' ≤ c && c ≤ 'Z')

def boundary (isLoose : Bool) (s : Text) : Option (Atom × Text) :=
  match s with
  | '\x7b' :: inner =>
    match next isLoose inner with
    | [] => none
    | c :: rest =>
      if isLetter c || c = '-' then do
        let (name, r) ← toBrace isLoose false (c :: rest)
        let (_, anchor) ← namedAnchors.find? (·.1.toList == name)
        some (.anchor anchor, r)
      else some (.anchor .boundary, s)
  | s => some (.anchor .boundary, s)

def shortLiterals : List (Char × Char) :=
  [('a', '\x07'), ('f', '\x0c'), ('t', '\t'), ('n', '\n'), ('r', '\r'), ('v', '\x0b')]

def shortAtoms : List (Char × Atom) :=
  [('A', .anchor .textStart), ('z', .anchor .textEnd), ('B', .anchor .noBoundary),
    ('<', .anchor .wordStart), ('>', .anchor .wordEnd), ('d', .shorthand false .digit),
    ('D', .shorthand true .digit), ('s', .shorthand false .blank), ('S', .shorthand true .blank),
    ('w', .shorthand false .word), ('W', .shorthand true .word)] ++
    shortLiterals.map fun (name, c) => (name, .literal ⟨c, false⟩)

def isEscapable (c : Char) : Bool :=
  c.toNat < 0x80 && !isLetter c && (Text.decimalDigit? c).isNone && c != '<' && c != '>'

def escape (isLoose : Bool) : Text → Option (Atom × Text)
  | [] => none
  | 'x' :: s => numbered isLoose 2 s
  | 'u' :: s => numbered isLoose 4 s
  | 'U' :: s => numbered isLoose 8 s
  | 'b' :: s => boundary isLoose s
  | c :: s =>
    if isEscapable c then some (.literal ⟨c, false⟩, s)
    else (shortAtoms.find? (·.1 == c)).map fun (_, atom) => (atom, s)

end PathSieve.Regex
