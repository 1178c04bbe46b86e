import PathSieve.Listing.Root
import PathSieve.Log
import PathSieve.Path.Listed
import PathSieve.Path.Relative
import PathSieve.Text.Quoted
import PathSieve.Tree.Visit

/-!
Listings by walking a tree. Every entry to a depth is listed by its path from the root, save those
whose path is no text. A root that is written `-` stands for standard input instead.
-/
namespace PathSieve.Listing.Walk

def relative? (root : Bytes) (path : Bytes) : Option Text :=
  Utf8.decode? (Path.relative path root)

def line? (root : Bytes) (visit : Tree.Visit) : Option Text :=
  (relative? root visit.path).map (Listed.render · visit.isDirectory)

def notText (path : Bytes) : Log.Entry :=
  ⟨.warn, .walk, "Skipping non-UTF8 path: ".toList ++ Quoted.quoteName path⟩

def notRead (path : Bytes) (why : Refusal) : Log.Entry :=
  ⟨.warn, .walk, "Skipping unreadable entry: ".toList ++ Path.display path ++
    ": IO error for operation on ".toList ++ Path.display path ++ ": ".toList ++ why.message⟩

def warnings (root : Bytes) (visit : Tree.Visit) : List Log.Entry :=
  (if (relative? root visit.path).isNone then [notText visit.path] else []) ++
    visit.refusal.toList.map (notRead visit.path)

def entry (root : Bytes) (count : Nat) : Log.Entry :=
  ⟨.debug, .walk, "walk listed ".toList ++ Text.decimal count ++ " entries under ".toList ++
    Path.display root⟩

def startEntry (world : World) : Log.Entry :=
  ⟨.trace, .traversal, "automatically discovered CWD: ".toList ++
    Path.display (Path.slash :: Text.join [Path.slash] world.cwd)⟩

def isInput (root : Bytes) : Bool := Path.components root == [.name (Utf8.encode ['-'])]

def input : Bytes := Utf8.encode "<stdin>".toList

def visits (root : Bytes) (depth : Nat) (isSorted : Bool) (t : Tree) : List Tree.Visit :=
  if isInput root then [⟨input, false, none⟩]
  else (if isSorted then t.sorted else t).visits (·.length < World.pathLimit) true depth root

def list (world : World) (root : Bytes) (depth : Nat) (isSorted : Bool) :
    Logged (Except Failure (List Text)) :=
  match Listing.root world root with
  | .error e => ⟨.error e, []⟩
  | .ok place =>
    let visited := visits root depth isSorted place.tree
    let lines := visited.filterMap (line? root)
    ⟨.ok lines, startEntry world :: visited.flatMap (warnings root) ++ [entry root lines.length]⟩

end PathSieve.Listing.Walk
