import PathSieve.Buffer
import PathSieve.Failure
import PathSieve.Log
import PathSieve.Record

/-!
Runs: what is listed is evaluated line by line, and each record is written before the next line is
looked at. A run into a buffer of limited size ends at the record that does not fit.
-/
namespace PathSieve

structure Summary where
  total : Nat
  matched : Nat
  deriving DecidableEq, Repr

structure Report where
  output : Text
  summary : Summary
  deriving DecidableEq, Repr

namespace Report

def empty : Report := ⟨[], ⟨0, 0⟩⟩

def add (diagnostics : Bool) (record : Record) (report : Report) : Report where
  output := record.render diagnostics ++ report.output
  summary := ⟨report.summary.total + 1, report.summary.matched + record.matched.toNat⟩

def ofRecords (diagnostics : Bool) (records : List Record) : Report :=
  records.foldr (add diagnostics) empty

end Report

namespace Run

def entry (record : Record) : Log.Entry where
  level := .debug
  source := .run
  message := Quoted.quote record.raw ++ " -> ".toList ++ Quoted.quote record.normalized ++
    " matched=".toList ++ Text.ofBool record.matched

structure Progress where
  buffer : Buffer
  summary : Summary
  deriving DecidableEq, Repr

def Progress.report (progress : Progress) : Report := ⟨progress.buffer.text, progress.summary⟩

def start (capacity : Option Nat) : Progress := ⟨.ofCapacity capacity, ⟨0, 0⟩⟩

def step (diagnostics : Bool) (progress : Progress) (record : Record) :
    Except Buffer Progress := do
  let buffer ← (record.pieces diagnostics).foldlM Buffer.write progress.buffer
  return ⟨buffer,
    ⟨progress.summary.total + 1, progress.summary.matched + record.matched.toNat⟩⟩

/-- How a run ends, and what it has written by then, whether or not it fails. -/
structure Written where
  buffer : Buffer
  ending : Except Failure Summary

namespace Written

def fail (capacity : Option Nat) (e : Failure) : Written := ⟨.ofCapacity capacity, .error e⟩

def report (written : Written) : Except Failure Report :=
  written.ending.map fun summary => ⟨written.buffer.text, summary⟩

end Written

def steps (policy : Policy) (diagnostics : Bool) : Progress → List Text → Logged Written
  | progress, [] => ⟨⟨progress.buffer, .ok progress.summary⟩, []⟩
  | progress, raw :: raws =>
    let record := Record.evaluate policy raw
    match step diagnostics progress record with
    | .error buffer => ⟨⟨buffer, .error (.system .noRoom)⟩, [entry record]⟩
    | .ok progress =>
      let rest := steps policy diagnostics progress raws
      ⟨rest.value, entry record :: rest.log⟩

def write (policy : Policy) (diagnostics : Bool) (capacity : Option Nat)
    (listed : Logged (Except Failure (List Text))) : Logged Written :=
  match listed.value with
  | .error e => ⟨.fail capacity e, listed.log⟩
  | .ok raws =>
    let run := steps policy diagnostics (start capacity) raws
    ⟨run.value, listed.log ++ run.log⟩

def ofListing (policy : Policy) (diagnostics : Bool) (capacity : Option Nat)
    (listed : Logged (Except Failure (List Text))) : Logged (Except Failure Report) :=
  let run := write policy diagnostics capacity listed
  ⟨run.value.report, run.log⟩

def report (policy : Policy) (diagnostics : Bool) (capacity : Option Nat) (raws : List Text) :
    Logged (Except Failure Report) :=
  ofListing policy diagnostics capacity ⟨.ok raws, []⟩

end Run

end PathSieve
