import PathSieve.Text

namespace PathSieve.Command

inductive Atom where
  | any
  | char (c : Char)
  | member (negated : Bool) (ranges : List (Char × Char))
  deriving DecidableEq, Repr

def Atom.fits (c : Char) : Atom → Bool
  | any => true
  | char d => c = d
  | member negated ranges => negated != ranges.any fun r => r.1 ≤ c && c ≤ r.2

structure Item where
  atom : Atom
  isRepeated : Bool
  deriving DecidableEq, Repr

structure Pattern where
  fromStart : Bool
  items : List Item
  toEnd : Bool
  deriving DecidableEq, Repr

namespace Pattern

def rangesOf : Text → List (Char × Char)
  | a :: '-' :: b :: s => (a, b) :: rangesOf s
  | c :: s => (c, c) :: rangesOf s
  | [] => []

def set? (s : Text) : Option (Atom × Text) :=
  let negated := s.head? == some '^'
  let body := if negated then s.tail else s
  let inside := body.take 1 ++ (body.drop 1).takeWhile (· != ']')
  match body.drop inside.length with
  | ']' :: rest => some (.member negated (rangesOf inside), rest)
  | _ => none

def atom : Text → Option (Atom × Text)
  | [] => none
  | '.' :: s => some (.any, s)
  | '[' :: s => some ((set? s).getD (.char '[', s))
  | '\\' :: c :: s => some (.char c, s)
  | c :: s => some (.char c, s)

/-- The items of a pattern, and whether it is tied to the end; each takes a character at least, so
`fuel` may be their number. -/
def itemsOf : (fuel : Nat) → Text → List Item × Bool
  | 0, _ => ([], false)
  | _ + 1, ['$'] => ([], true)
  | fuel + 1, s =>
    match atom s with
    | none => ([], false)
    | some (a, '*' :: s) => (⟨a, true⟩ :: (itemsOf fuel s).1, (itemsOf fuel s).2)
    | some (a, s) => (⟨a, false⟩ :: (itemsOf fuel s).1, (itemsOf fuel s).2)

def parse (s : Text) : Pattern :=
  let fromStart := s.head? == some '^'
  let (items, toEnd) := itemsOf (s.length + 1) (if fromStart then s.tail else s)
  ⟨fromStart, items, toEnd⟩

-- What is left behind a match at the front. Repeated items take as much as they can.
def rest? (toEnd : Bool) : List Item → Text → Option Text
  | [], s => if toEnd && !s.isEmpty then none else some s
  | item :: is, [] => if item.isRepeated then rest? toEnd is [] else none
  | item :: is, c :: s =>
    if item.isRepeated then
      (if item.atom.fits c then rest? toEnd (item :: is) s else none) <|> rest? toEnd is (c :: s)
    else if item.atom.fits c then rest? toEnd is s
    else none
termination_by is s => is.length + s.length

def after? (p : Pattern) (atStart : Bool) (s : Text) : Option Text :=
  if p.fromStart && !atStart then none else rest? p.toEnd p.items s

def occurs (p : Pattern) (atStart : Bool) : Text → Bool
  | [] => (p.after? atStart []).isSome
  | c :: s => (p.after? atStart (c :: s)).isSome || p.occurs false s

end Pattern

end PathSieve.Command
