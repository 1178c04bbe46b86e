import PathSieve.Command.Find
import PathSieve.Command.Options
import PathSieve.Text.Line

namespace PathSieve.Command.Tool

open Find (newline)

def text (s : Bytes) : Text := Utf8.decodeLossy s

structure Call where
  world : World
  input : Bytes
  called : Bytes

def Call.fail (call : Call) (message : Text) : Outcome := Find.fail call.called message

def Call.refuse (call : Call) (message : Text) : Outcome :=
  call.fail (message ++ "\nTry '".toList ++ text call.called ++
    " --help' for more information.".toList)

def file (path : Bytes) (cause : Refusal) : Text :=
  Path.display path ++ ": ".toList ++ cause.description

def Call.read (call : Call) (path : Bytes) : Except Refusal Bytes :=
  if path = [0x2D] then .ok call.input else call.world.read path

def Call.through (call : Call) (f : Bytes → Bytes) (files : List Bytes) : Outcome :=
  if files.isEmpty then .success (f call.input)
  else
    let whole := files.foldl (fun done path =>
      Outcome.andThen done (match call.read path with
        | .ok content => .success content
        | .error cause => call.fail (file path cause))) (.success [])
    { whole with stdout := f whole.stdout }

def linesOf (s : Bytes) : List Bytes := Line.split newline s

def ofLines (ls : List Bytes) : Bytes := Line.unsplit newline ls

end PathSieve.Command.Tool
