import PathSieve.Settings.File
import PathSieve.Tree.World

/-!
Discovery: which file the settings come from. A file that is asked for has to be there; else the one
in the root comes before the one of the user, and without either the settings are empty.
-/
namespace PathSieve

namespace Settings

def localName : Bytes := Utf8.encode ".pathcheck.toml".toList

def userName : Bytes := Utf8.encode "config.toml".toList

def load (diagnose : Text → Toml.Diagnosis) (world : World) (path : Bytes) :
    Except Failure Settings :=
  match world.read path with
  | .error cause => .error (.settingsUnreadable path cause)
  | .ok content => ofBytes diagnose path content

def candidates (root : Bytes) (userDirectory : Option Bytes) : List Bytes :=
  Path.join root localName :: (userDirectory.map (Path.join · userName)).toList

def discover (diagnose : Text → Toml.Diagnosis) (world : World) (explicit : Option Bytes)
    (root : Bytes) (userDirectory : Option Bytes) : Except Failure (Settings × Option Bytes) :=
  match explicit <|> (candidates root userDirectory).find? world.hasFile with
  | some path => (load diagnose world path).map (·, some path)
  | none => .ok ({}, none)

end Settings

end PathSieve
