import PathSieve.Arguments.Fault

/-! Reading arguments from left to right. They are bytes, of which those that name something have to
be text. A parameter that takes a value waits for it, and is taken in only when the next one turns
up or the arguments end; so a fault of what comes next can be reported before its own. -/

namespace PathSieve.Arguments

inductive Stop where
  | fault (fault : Fault)
  | help (isLong : Bool)
  | version
  deriving DecidableEq, Repr

abbrev Parsed (α : Type) := Except Stop α

def refuse {α : Type} (fault : Fault) : Parsed α := .error (.fault fault)

structure Progress where
  arguments : Arguments := {}
  -- The parameters taken in, the first one last.
  given : List Parameter := []
  pending : Option (Parameter × Option Bytes) := none
  isTrailing : Bool := false
  hasDirectory : Bool := false

def nonempty (p : Parameter) (value : Bytes) : Parsed Bytes :=
  if value.isEmpty then refuse (.missingValue p) else .ok value

def named {α : Type} (ofName? : Text → Option α) (p : Parameter) (value : Bytes) : Parsed α := do
  let value ← nonempty p value
  match (Utf8.decode? value).bind ofName? with
  | some a => return a
  | none => refuse (.badValue p (Utf8.decodeLossy value))

def depth (value : Bytes) : Parsed Nat :=
  match Utf8.decode? value with
  | none => refuse .notUtf8
  | some s =>
    match number s with
    | .ok n => .ok n
    | .error why => refuse (.badNumber .maxDepth s why)

def setValue (arguments : Arguments) (p : Parameter) (value : Bytes) : Parsed Arguments :=
  match p with
  | .policy => do return { arguments with policy := some (← named Policy.Kind.ofName? p value) }
  | .maxDepth => do return { arguments with maxDepth := ← depth value }
  | .lister => do return { arguments with lister := ← named Lister.ofName? p value }
  | .config => do return { arguments with settings := some (← nonempty p value) }
  | .directory => do return { arguments with directory := ← nonempty p value }
  | _ => refuse (.surplusValue p (Utf8.decodeLossy value))

def setFlag (arguments : Arguments) : Parameter → Arguments
  | .stdin => { arguments with fromInput := true }
  | .sort => { arguments with isSorted := true }
  | .noDiagnostics => { arguments with noDiagnostics := true }
  | _ => arguments

def hyphen : UInt8 := 0x2D

def equals : UInt8 := 0x3D

namespace Progress

def take (progress : Progress) (p : Parameter) (set : Arguments → Parsed Arguments) :
    Parsed Progress :=
  if p ∈ progress.given then refuse (.repeated p)
  else do
    let arguments ← set progress.arguments
    return { progress with arguments, given := p :: progress.given }

def settle (progress : Progress) : Parsed Progress :=
  match progress.pending with
  | none => .ok progress
  | some (p, none) => refuse (.missingValue p)
  | some (p, some value) => { progress with pending := none }.take p (setValue · p value)

def withValue (progress : Progress) (p : Parameter) (value : Bytes) : Parsed Progress := do
  let progress ← progress.settle
  progress.take p (setValue · p value)

def await (progress : Progress) (p : Parameter) : Parsed Progress := do
  let progress ← progress.settle
  return { progress with pending := some (p, none) }

def withFlag (progress : Progress) (isLong : Bool) (p : Parameter) : Parsed Progress := do
  let progress ← progress.settle
  match p with
  | .help => .error (.help isLong)
  | .version => .error .version
  | p => progress.take p fun arguments => .ok (setFlag arguments p)

def long (progress : Progress) (name : Bytes) (value : Option Bytes) : Parsed Progress :=
  match (Utf8.decode? name).bind Parameter.ofLong? with
  | none => refuse (.unknown ('-' :: '-' :: Utf8.decodeLossy name))
  | some p =>
    match p.takesValue, value with
    | true, some value => progress.withValue p value
    | true, none => progress.await p
    | false, some value => refuse (.surplusValue p (Utf8.decodeLossy value))
    | false, none => progress.withFlag true p

def dropEquals (s : Bytes) : Bytes := if s.head? = some equals then s.tail else s

-- No flag goes on after an option of one character: those that take no value end the reading.
def letter (progress : Progress) (c : Char) (rest : Bytes) : Parsed Progress :=
  match Parameter.ofShort? c with
  | none => refuse (.unknown ['-', c])
  | some p =>
    if !p.takesValue then progress.withFlag false p
    else if rest.isEmpty then progress.await p
    else progress.withValue p (dropEquals rest)

def short (progress : Progress) (first : UInt8) (rest : Bytes) : Parsed Progress :=
  match Utf8.next first rest with
  | (some c, rest) => progress.letter c rest
  | (none, _) => refuse (.unknown ('-' :: Utf8.decodeLossy (first :: rest)))

def positional (progress : Progress) (argument : Bytes) : Parsed Progress :=
  if progress.hasDirectory then refuse (.unknown (Utf8.decodeLossy argument))
  else do
    let progress ← progress.settle
    return { progress with pending := some (.directory, some argument), hasDirectory := true }

def splitEquals (s : Bytes) : Bytes × Option Bytes :=
  match s.dropWhile (· != equals) with
  | [] => (s, none)
  | _ :: value => (s.takeWhile (· != equals), some value)

def plain (progress : Progress) (argument : Bytes) : Parsed Progress :=
  match progress.pending with
  | some (p, none) => .ok { progress with pending := some (p, some argument) }
  | _ => progress.positional argument

def option (progress : Progress) (first : UInt8) (rest : Bytes) : Parsed Progress :=
  if first ≠ hyphen then progress.short first rest
  else if rest = [] then .ok { progress with isTrailing := true }
  else progress.long (splitEquals rest).1 (splitEquals rest).2

def step (progress : Progress) (argument : Bytes) : Parsed Progress :=
  if progress.isTrailing then progress.positional argument
  else match argument with
    | [] | [_] => progress.plain argument
    | mark :: first :: rest =>
      if mark = hyphen then progress.option first rest else progress.plain argument

def conflict? (progress : Progress) : Option Fault :=
  match progress.given.reverse.filter fun p => p = .stdin || p = .lister with
  | [p, q] => some (.conflict p q)
  | _ => none

def finish (progress : Progress) : Parsed Arguments := do
  let progress ← progress.settle
  match progress.conflict? with
  | some fault => refuse fault
  | none => return progress.arguments

end Progress

def parse (argv : List Bytes) : Parsed Arguments := do
  let progress ← argv.foldlM Progress.step {}
  progress.finish

end PathSieve.Arguments
