import PathSieve.Path
import PathSieve.Policy.Allowlist
import PathSieve.Refusal
import PathSieve.Settings.Decode

namespace PathSieve

inductive Failure where
  | system (cause : Refusal)
  | rootMissing (root : Bytes)
  | rootNotDirectory (root : Bytes)
  | listingFailed (command status stderr : Text)
  | settingsUnreadable (path : Bytes) (cause : Refusal)
  | settingsInvalid (path : Bytes) (fault : Settings.Fault)
  | badPattern (error : PatternError)
  deriving DecidableEq, Repr

namespace Failure

def message : Failure → Text
  | system cause => "IO error: ".toList ++ cause.message
  | rootMissing root => "Root directory not found: ".toList ++ Path.display root
  | rootNotDirectory root => "Root is not a directory: ".toList ++ Path.display root
  | listingFailed command status stderr =>
    "Listing command `".toList ++ command ++ "` failed (".toList ++ status ++ "): ".toList ++ stderr
  | settingsUnreadable path cause =>
    "Cannot read config file '".toList ++ Path.display path ++ "': ".toList ++ cause.message
  | settingsInvalid path fault =>
    "Invalid config file '".toList ++ Path.display path ++ "': ".toList ++ fault.message
  | badPattern error => "Invalid pattern: ".toList ++ error.message

end Failure

end PathSieve
