import PathSieve.Terminal.Styled

namespace PathSieve.Arguments.Help

open Terminal (Span Styled)

def heading (s : String) : Span := ⟨.heading, s.toList⟩

def literal (s : String) : Span := ⟨.literal, s.toList⟩

def plain (s : String) : Span := .plain s.toList

def line (spans : List Span) : Styled := spans ++ [plain "\n"]

def lines (ls : List String) : Styled := ls.flatMap fun l => line [plain l]

def version : Styled := lines ["pathcheck 0.1.0"]

def usage : Styled :=
  line [heading "Usage:", plain " ", literal "pathcheck", plain " [OPTIONS] [DIRECTORY]"] ++
    line []

def withShort (short long rest : String) : Styled :=
  line [plain "  ", literal short, plain ", ", literal long, plain rest]

def withoutShort (long rest : String) : Styled := line [plain "      ", literal long, plain rest]

def short : Styled :=
  lines ["Lists a directory tree and reports which paths a filtering policy accepts", ""] ++
  usage ++
  line [heading "Arguments:"] ++
  lines ["  [DIRECTORY]  Directory to list (defaults to current directory) [default: .]", ""] ++
  line [heading "Options:"] ++
  withShort "-p" "--policy" (" <POLICY>        Filtering policy (defaults to the config file's " ++
    "policy, then directory-denylist) [possible values: directory-denylist, known-paths]") ++
  withShort "-L" "--max-depth" " <MAX_DEPTH>  Maximum listing depth below the root [default: 2]" ++
  withoutShort "--lister"
    " <LISTER>        How entries are listed [default: walk] [possible values: walk, find]" ++
  withoutShort "--stdin"
    "                  Read raw paths from stdin (newline-delimited) instead of listing" ++
  withoutShort "--sort" "                   Sort walked entries by file name" ++
  withShort "-c" "--config" " <CONFIG>        TOML file overriding the policy lists" ++
  withoutShort "--no-diagnostics"
    "         Only print the `<path>, <True|False>` line for each path" ++
  withShort "-h" "--help" "                   Print help (see more with '--help')" ++
  withShort "-V" "--version" "                Print version"

def choice (name rest : String) : Styled := line [plain "          - ", literal name, plain rest]

def long : Styled :=
  lines [
    "Lists the entries of a directory tree up to a fixed depth and prints, for each path, " ++
      "whether the selected policy accepts it.",
    "",
    "Each path is printed with its leading './' removed, followed by True or False. " ++
      "Set RUST_LOG=debug for per-path logging.",
    ""] ++
  usage ++
  line [heading "Arguments:"] ++
  lines ["  [DIRECTORY]",
    "          Directory to list (defaults to current directory)",
    "          ",
    "          [default: .]",
    ""] ++
  line [heading "Options:"] ++
  withShort "-p" "--policy" " <POLICY>" ++
  lines [
    "          Filtering policy (defaults to the config file's policy, then directory-denylist)",
    "",
    "          Possible values:"] ++
  choice "directory-denylist" ": Any directory entry except a fixed denylist" ++
  choice "known-paths" ":        A fixed allowlist of project scaffolding paths" ++
  lines [""] ++
  withShort "-L" "--max-depth" " <MAX_DEPTH>" ++
  lines ["          Maximum listing depth below the root",
    "          ",
    "          [default: 2]",
    ""] ++
  withoutShort "--lister" " <LISTER>" ++
  lines ["          How entries are listed",
    "          ",
    "          [default: walk]",
    "",
    "          Possible values:"] ++
  choice "walk" ": Walk the directory in-process, marking directories with a trailing `/`" ++
  choice "find" ": Run `find ./ -maxdepth N` inside the root" ++
  lines [""] ++
  withoutShort "--stdin" "" ++
  lines ["          Read raw paths from stdin (newline-delimited) instead of listing", ""] ++
  withoutShort "--sort" "" ++
  lines ["          Sort walked entries by file name", ""] ++
  withShort "-c" "--config" " <CONFIG>" ++
  lines ["          TOML file overriding the policy lists", ""] ++
  withoutShort "--no-diagnostics" "" ++
  lines ["          Only print the `<path>, <True|False>` line for each path", ""] ++
  withShort "-h" "--help" "" ++
  lines ["          Print help (see a summary with '-h')", ""] ++
  withShort "-V" "--version" "" ++
  lines ["          Print version"]

end PathSieve.Arguments.Help
