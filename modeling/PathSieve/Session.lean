import PathSieve.Arguments.Help
import PathSieve.Arguments.Parse
import PathSieve.Environment
import PathSieve.Listing.Find
import PathSieve.Listing.Input
import PathSieve.Listing.Walk
import PathSieve.Log.Filter
import PathSieve.Run
import PathSieve.Settings.Discover
import PathSieve.Terminal.Strip

/-! Sessions: the whole program as a function of its world, environment, arguments and input. The
settings are found first, then the policy is built, then the paths are listed, and then each record
is written in turn. -/

namespace PathSieve

/-- What a session leaves to others: to run programs, and to tell what is wrong with a text that is
no TOML. -/
structure Host where
  runner : Listing.Find.Runner
  diagnose : Text → Toml.Diagnosis

namespace Session

variable (host : Host) (world : World) (env : Environment)

def info (message : Text) : Log.Entry := ⟨.info, .session, message⟩

def list (arguments : Arguments) (input : Bytes) : Logged (Except Failure (List Text)) :=
  if arguments.fromInput then (Listing.Input.Source.ofBytes input).list.1
  else match arguments.lister with
    | .walk =>
      Listing.Walk.list world arguments.directory arguments.maxDepth arguments.isSorted
    | .find =>
      Listing.Find.list host.runner world env.search Listing.Find.standard arguments.directory
        arguments.maxDepth

def discovered (arguments : Arguments) : Except Failure (Settings × Option Bytes) :=
  Settings.discover host.diagnose world arguments.settings arguments.directory env.userDirectory?

def sourceEntries (source : Option Bytes) : List Log.Entry :=
  source.toList.map fun path => info ("using config ".toList ++ Path.display path)

def policyEntries (settings : Settings) : Policy.Kind → List Log.Entry
  | .denylist => []
  | .allowlist => Allowlist.entries (settings.patterns.getD Allowlist.defaultPatterns)

def summaryEntries : Except Failure Summary → List Log.Entry
  | .error _ => []
  | .ok summary =>
    [info (Text.decimal summary.matched ++ " of ".toList ++ Text.decimal summary.total ++
      " paths matched".toList)]

def write (arguments : Arguments) (input : Bytes) : Logged Run.Written :=
  match discovered host world env arguments with
  | .error e => ⟨.fail none e, []⟩
  | .ok (settings, source) =>
    let built := sourceEntries source ++ policyEntries settings (settings.kindFor arguments.policy)
    match settings.policyFor arguments.policy with
    | .error e => ⟨.fail none e, built⟩
    | .ok policy =>
      let log := built ++ [info ("evaluating with ".toList ++ policy.kind.label)]
      let run := Run.write policy (!arguments.noDiagnostics) none
        (list host world env arguments input)
      ⟨run.value, log ++ run.log ++ summaryEntries run.value.ending⟩

structure Outcome where
  code : Nat
  stdout : Text
  warnings : List Text
  log : List Log.Entry
  error : Option Text

def ofStop (isColored : Bool) : Arguments.Stop → Outcome
  | .help true => ⟨0, Terminal.display isColored Arguments.Help.long, [], [], none⟩
  | .help false => ⟨0, Terminal.display isColored Arguments.Help.short, [], [], none⟩
  | .version => ⟨0, Terminal.display isColored Arguments.Help.version, [], [], none⟩
  | .fault fault => ⟨2, [], [], [], some (Terminal.display isColored fault.report)⟩

def ofWritten (run : Logged Run.Written) : Outcome :=
  match run.value.ending with
  | .ok _ => ⟨0, run.value.buffer.text, [], run.log, none⟩
  | .error e => ⟨1, run.value.buffer.text, [], run.log, some ("Error: ".toList ++ e.message)⟩

def filterOf : Log.Filter × List Text :=
  match env.logFilter with
  | none => (.standard, [])
  | some spec =>
    let (filter, faults) := Log.Filter.parse (Path.display spec)
    (filter, faults.map (·.warning))

def run (argv : List Bytes) (input : Bytes) : Outcome :=
  let outcome := match Arguments.parse argv with
    | .error stop => ofStop env.isColored stop
    | .ok arguments => ofWritten (write host world env arguments input)
  let (filter, warnings) := filterOf env
  { outcome with warnings, log := outcome.log.filter filter.passes }

/-- The lines that a session writes beside its output, in order; those of its log are marked. -/
def Outcome.remarks (outcome : Outcome) : List (Bool × Text) :=
  outcome.warnings.map (false, ·) ++
    outcome.log.flatMap (fun e => match e.lines with
      | [] => []
      | first :: more => (true, first) :: more.map (false, ·)) ++
    (outcome.error.toList.flatMap (Line.split '\n')).map (false, ·)

end Session

end PathSieve
