import PathSieve.Tree.World

/-!
Where programs are found. Those of the system lie in `/bin` and `/usr/bin`; a search path is a list
of directories between colons, in which an empty name stands for the working directory.
-/
namespace PathSieve.Command.Search

def colon : UInt8 := 0x3A

def standard : Bytes := Utf8.encode "/usr/local/bin:/usr/bin:/bin".toList

def directories (path : Bytes) : List Bytes := Text.splitOn (· == colon) path

def candidate (directory name : Bytes) : Bytes :=
  if directory.isEmpty then name else directory ++ Path.slash :: name

def systemDirectories : List (List Bytes) :=
  [["bin"], ["usr", "bin"]].map fun names => names.map fun s => Utf8.encode s.toList

def names? (path : Bytes) : Option (List Bytes) :=
  if Path.isAbsolute path then some ((World.pieces path).filter (!·.isEmpty)) else none

def systemName? (path : Bytes) : Option Bytes :=
  (names? path).bind fun names =>
    if names.dropLast ∈ systemDirectories then names.getLast? else none

end PathSieve.Command.Search
