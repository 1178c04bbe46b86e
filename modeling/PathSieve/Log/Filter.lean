import PathSieve.Log
import PathSieve.Regex
import PathSieve.Terminal.Strip
import PathSieve.Text.Blank

/-!
Log filters: directives between commas, each a level, the name of a source, or a name with its
level, and behind a slash a regular expression that messages have to match. Of the directives that
are for a source the one with the longest name decides.
-/
namespace PathSieve.Log

structure Directive where
  -- The names of the sources that it is for start with this one; without it, it is for all.
  name : Option Text
  -- The greatest rank that is logged; zero logs nothing.
  rank : Nat
  deriving DecidableEq, Repr

def Directive.length (d : Directive) : Nat := (d.name.getD []).length

structure Filter where
  directives : List Directive
  expression : Option Regex

namespace Filter

def greatestRank : Nat := 5

def levelNames : List Text :=
  ["off", "error", "warn", "info", "debug", "trace"].map String.toList

def rank? (s : Text) : Option Nat := levelNames.findIdx? (· == s.map Char.toLower)

inductive Malformed where
  | directive (part : Text)
  | slashes (whole : Text)
  | expression (why : Regex.Fault)
  deriving DecidableEq, Repr

def Malformed.warning (e : Malformed) : Text :=
  "warning: invalid ".toList ++
    match e with
    | directive part => "logging spec '".toList ++ part ++ "', ignoring it".toList
    | slashes whole =>
      "logging spec '".toList ++ whole ++ "' (too many '/'s), ignoring it".toList
    | expression .malformed => "regex filter - ".toList ++ Regex.Fault.malformed.message
    | expression why => "regex filter - ".toList ++ why.message ++ ", ignoring it".toList

def directive (s : Text) : Except Malformed Directive :=
  match Text.splitOn (· == '=') s with
  | [a] =>
    match rank? a with
    | some rank => .ok ⟨none, rank⟩
    | none => .ok ⟨some a, greatestRank⟩
  | [a, b] =>
    let level := Text.trim b
    if level.isEmpty then .ok ⟨some a, greatestRank⟩
    else match rank? level with
      | some rank => .ok ⟨some a, rank⟩
      | none => .error (.directive level)
  | _ => .error (.directive s)

def insert (d : Directive) : List Directive → List Directive
  | [] => [d]
  | e :: es => if e.name = d.name then d :: es else e :: insert d es

def parts (s : Text) : List Text :=
  ((Text.splitOn (· == ',') s).map Text.trim).filter (!·.isEmpty)

def collect (results : List (Except Malformed Directive)) : List Directive :=
  (results.filterMap (·.toOption)).foldl (fun es d => insert d es) []

def fault? {α : Type} : Except Malformed α → Option Malformed
  | .ok _ => none
  | .error e => some e

def onlyErrors : List Directive := [⟨none, 1⟩]

def compiled (s : Text) : Except Malformed Regex := (Regex.compile s).mapError .expression

def parse (s : Text) : Filter × List Malformed :=
  match Text.splitOn (· == '/') s with
  | mods :: rest =>
    if 1 < rest.length then (⟨onlyErrors, none⟩, [.slashes s])
    else
      let results := (parts mods).map directive
      let found := collect results
      let expressions := rest.map compiled
      (⟨if found.isEmpty then onlyErrors else found, expressions.head?.bind (·.toOption)⟩,
        results.filterMap fault? ++ expressions.filterMap fault?)
  | [] => (⟨onlyErrors, none⟩, [])

def standard : Filter := ⟨[⟨none, 2⟩], none⟩

-- Of two directives the one with the longer name, the later one where they are equally long.
def longer (found : Option Directive) (d : Directive) : Option Directive :=
  match found with
  | none => some d
  | some e => if e.length ≤ d.length then some d else some e

def isFor (source : Text) (d : Directive) : Bool := (d.name.getD []).isPrefixOf source

def decisive? (filter : Filter) (source : Text) : Option Directive :=
  (filter.directives.filter (isFor source)).foldl longer none

def passes (filter : Filter) (entry : Entry) : Bool :=
  match filter.decisive? entry.source.name with
  | none => false
  | some d => entry.level.rank ≤ d.rank && filter.expression.all (·.occursIn entry.message)

end Filter

def Entry.heading (entry : Entry) : Text :=
  entry.level.name ++ List.replicate (5 - entry.level.name.length) ' ' ++ ' ' :: entry.source.name

-- An entry is written on one line, the further lines of its message indented below it, without
-- what only a terminal understands.
def Entry.lines (entry : Entry) : List Text :=
  let message := Text.join "\n    ".toList (Text.splitOn (· == '\n') entry.message)
  Text.splitOn (· == '\n') (Terminal.strip (entry.heading ++ ' ' :: message))

end PathSieve.Log
