import PathSieve.Command.Search

namespace PathSieve

structure Environment where
  settingsDirectory : Option Bytes := none
  configHome : Option Bytes := none
  home : Option Bytes := none
  accountHome : Option Bytes := none
  logFilter : Option Bytes := none
  searchPath : Option Bytes := none
  noColor : Option Bytes := none
  forceColor : Option Bytes := none

namespace Environment

-- A variable that is set to nothing counts as unset.
def homeDirectory? (env : Environment) : Option Bytes :=
  env.home.filter (!·.isEmpty) <|> env.accountHome.filter (!·.isEmpty)

-- Where the system keeps the configuration of a user. A relative place does not count.
def configDirectory? (env : Environment) : Option Bytes :=
  match env.configHome.filter Path.isAbsolute with
  | some directory => some directory
  | none => env.homeDirectory?.map (Path.join · (Utf8.encode ".config".toList))

def userDirectory? (env : Environment) : Option Bytes :=
  match env.settingsDirectory.filter (!·.isEmpty) with
  | some directory => some directory
  | none => env.configDirectory?.map (Path.join · (Utf8.encode "pathcheck".toList))

-- Whether messages are colored. What a session writes goes to no terminal, so it has to be asked
-- for colors.
def isColored (env : Environment) : Bool :=
  !env.noColor.any (!·.isEmpty) && env.forceColor.any (· != Utf8.encode ['0'])

def search (env : Environment) : Bytes := env.searchPath.getD Command.Search.standard

end Environment

end PathSieve
