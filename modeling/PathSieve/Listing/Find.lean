import PathSieve.Command.Outcome
import PathSieve.Listing.Root
import PathSieve.Log
import PathSieve.Text.Blank
import PathSieve.Text.Line

/-!
Listings by a program: it runs in the root and its output is taken line by line. The program is told
to list the working directory to a depth, as `find` does.
-/
namespace PathSieve.Listing.Find

def standard : Text := "find".toList

def arguments (depth : Nat) : List Text := ["./".toList, "-maxdepth".toList, Text.decimal depth]

def command (program : Text) (depth : Nat) : Text := Text.join [' '] (program :: arguments depth)

def lines (output : Bytes) : List Text :=
  (Line.split '\n' (Line.dropReturns (Utf8.decodeLossy output))).filter (!·.isEmpty)

def entry (root : Bytes) (command : Text) : Log.Entry :=
  ⟨.debug, .find, "running `".toList ++ command ++ "` in ".toList ++ Path.display root⟩

def result (command : Text) (outcome : Command.Outcome) : Except Failure (List Text) :=
  if outcome.status.isSuccess then .ok (lines outcome.stdout)
  else .error (.listingFailed command outcome.status.text
    (Text.trim (Utf8.decodeLossy outcome.stderr)))

/-- Runs a program, which is looked up by a search path, in the working directory of a world. -/
abbrev Runner := World → (search program : Bytes) → List Bytes → Except Refusal Command.Outcome

-- A program with a NUL in its name is refused before the directory is entered.
def run (runner : Runner) (world : World) (search program : Bytes) (place : World.Place)
    (arguments : List Bytes) : Except Refusal Command.Outcome :=
  if program.contains 0 then .error .nulInArgument
  else if !place.access?.any (·.canEnter) then .error .denied
  else runner (world.enter place) search program arguments

def list (runner : Runner) (world : World) (search : Bytes) (program : Text) (root : Bytes)
    (depth : Nat) : Logged (Except Failure (List Text)) :=
  match Listing.root world root with
  | .error e => ⟨.error e, []⟩
  | .ok place =>
    let line := command program depth
    let outcome := run runner world search (Utf8.encode program) place
      ((arguments depth).map Utf8.encode)
    let listed := match outcome with
      | .error cause => .error (.system cause)
      | .ok outcome => result line outcome
    ⟨listed, [entry root line]⟩

end PathSieve.Listing.Find
