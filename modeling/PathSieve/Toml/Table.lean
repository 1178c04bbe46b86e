import PathSieve.Toml.Node

/-!
Building tables. Headers and dotted keys both lead through tables, and make those that are missing
on the way; they differ in which tables they may add to.
-/
namespace PathSieve.Toml

inductive Route where
  | header
  | dotted
  deriving DecidableEq, Repr

namespace Route

def origin : Route → Origin
  | header => .passed
  | dotted => .dotted

/-- A header adds to every table that is not written in braces, dotted keys only to a table without
a header of its own. -/
def mayEnter : Route → Origin → Bool
  | header, o => o != .braced
  | dotted, o => o == .passed || o == .dotted

end Route

namespace Entries

def node? (name : Text) (es : Entries) : Option Node :=
  (es.find? fun e => e.1.name == name).map (·.2)

def without (name : Text) (es : Entries) : Entries := es.filter fun e => e.1.name != name

def alter? (f : Option Node → Option Node) (key : Key) : Entries → Option Entries
  | [] => (f none).map fun node => [(key, node)]
  | e :: es =>
    if e.1.name == key.name then (f (some e.2)).map fun node => (e.1, node) :: es
    else (alter? f key es).map (e :: ·)

end Entries

namespace Node

def enter? (route : Route) (f : Node → Option Node) : Option Node → Option Node
  | none => f (.table none route.origin [])
  | some (.table span origin es) =>
    if route.mayEnter origin then f (.table span origin es) else none
  | some (.tables items) => do
    let last ← items.getLast?
    let last ← f last
    some (.tables (items.dropLast ++ [last]))
  | some _ => none

def edit? (route : Route) (f : Node → Option Node) : List Key → Node → Option Node
  | [], node => f node
  | key :: path, .table span origin es =>
    (Entries.alter? (enter? route (edit? route f path)) key es).map (.table span origin ·)
  | _ :: _, _ => none

/-- Adds a new key. A table with a header takes only keys without dots, one made by dotted keys only
keys with them. -/
def insert? (direct : Bool) (key : Key) (value : Node) : Node → Option Node
  | .table span origin es =>
    if (origin != .dotted) == direct && (Entries.node? key.name es).isNone then
      some (.table span origin (es ++ [(key, value)]))
    else none
  | _ => none

def assign? (table : Node) (path : List Key) (key : Key) (value : Node) : Option Node :=
  table.edit? .dotted (insert? path.isEmpty key value) path

def open? (key : Key) (span : Span) : Node → Option Node
  | .table outer origin es =>
    let put (inner : Entries) :=
      some (.table outer origin
        (Entries.without key.name es ++ [(key, .table (some span) .header inner)]))
    match Entries.node? key.name es with
    | none => put []
    | some (.table _ .passed inner) => put inner
    | some _ => none
  | _ => none

def openNext? (key : Key) (span : Span) : Node → Option Node
  | .table outer origin es =>
    let next : Node := .table (some span) .header []
    let put : Option Node → Option Node
      | none => some (.tables [next])
      | some (.tables items) => some (.tables (items ++ [next]))
      | some _ => none
    (Entries.alter? put key es).map (.table outer origin ·)
  | _ => none

-- A table reaches to the end of its last value.
def extend (value : Node) : Node → Node
  | .table (some span) origin es => .table (some (span.upTo (value.span?.getD span))) origin es
  | node => node

end Node

end PathSieve.Toml
