import PathSieve.Text

/-!
The pieces of a pattern, read from left to right: a backslash with the character after it, a class
in brackets, or a single character. Reading stops at the first piece that cannot be completed.
-/
namespace PathSieve.Glob

inductive Fault where
  | danglingEscape
  | unclosedClass
  | reversedRange (low high : Char)
  | unopenedGroup
  | unclosedGroup
  deriving DecidableEq, Repr

inductive Piece where
  | plain (c : Char)
  | escaped (c : Char)
  | members (negated : Bool) (ranges : List (Char × Char))
  deriving DecidableEq, Repr

structure Members where
  negated : Bool := false
  ranges : List (Char × Char) := []
  open_ : Bool := false
  deriving DecidableEq, Repr

namespace Members

inductive Step where
  | more (next : Members)
  | closed (piece : Piece)
  | fault (why : Fault)

/-- Takes one character. A `]` closes unless it would be the first member; a `-` in front or at the
end stands for itself, and any other one makes the next character the upper end of the range before
it. -/
def step (m : Members) (c : Char) : Step :=
  match m.ranges with
  | [] =>
    if !m.negated && (c = '!' || c = '^') then .more { m with negated := true }
    else .more { m with ranges := [(c, c)] }
  | (low, high) :: others =>
    if c = ']' then
      let all := if m.open_ then ('-', '-') :: m.ranges else m.ranges
      .closed (.members m.negated all.reverse)
    else if m.open_ then
      if c < low then .fault (.reversedRange low c)
      else .more { m with ranges := (low, c) :: others, open_ := false }
    else if c = '-' then .more { m with open_ := true }
    else .more { m with ranges := (c, c) :: (low, high) :: others }

end Members

inductive Mode where
  | outside
  | escape
  | inside (m : Members)

def scan : Mode → Text → List Piece × Option Fault
  | .outside, [] => ([], none)
  | .escape, [] => ([], some .danglingEscape)
  | .inside _, [] => ([], some .unclosedClass)
  | .outside, c :: s =>
    if c = '\\' then scan .escape s
    else if c = '[' then scan (.inside {}) s
    else (.plain c :: (scan .outside s).1, (scan .outside s).2)
  | .escape, c :: s => (.escaped c :: (scan .outside s).1, (scan .outside s).2)
  | .inside m, c :: s =>
    match m.step c with
    | .more m => scan (.inside m) s
    | .closed piece => (piece :: (scan .outside s).1, (scan .outside s).2)
    | .fault why => ([], some why)

def pieces (pattern : Text) : List Piece × Option Fault := scan .outside pattern

end PathSieve.Glob
