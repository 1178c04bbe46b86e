import PathSieve.Policy.Kind
import PathSieve.Text.Utf8

namespace PathSieve

inductive Lister where
  | walk
  | find
  deriving DecidableEq, Repr

namespace Lister

def name : Lister → Text
  | walk => "walk".toList
  | find => "find".toList

def ofName? (s : Text) : Option Lister :=
  if s = walk.name then some walk else if s = find.name then some find else none

theorem ofName?_name (lister : Lister) : ofName? lister.name = some lister := by
  cases lister <;> decide

end Lister

structure Arguments where
  policy : Option Policy.Kind := none
  maxDepth : Nat := 2
  lister : Lister := .walk
  fromInput : Bool := false
  isSorted : Bool := false
  settings : Option Bytes := none
  noDiagnostics : Bool := false
  directory : Bytes := Utf8.encode ['.']
  deriving DecidableEq, Repr

namespace Arguments

inductive Parameter where
  | policy
  | maxDepth
  | lister
  | stdin
  | sort
  | config
  | noDiagnostics
  | help
  | version
  | directory
  deriving DecidableEq, Repr

namespace Parameter

def takesValue : Parameter → Bool
  | policy | maxDepth | lister | config | directory => true
  | _ => false

def long? : Parameter → Option Text
  | policy => some "policy".toList
  | maxDepth => some "max-depth".toList
  | lister => some "lister".toList
  | stdin => some "stdin".toList
  | sort => some "sort".toList
  | config => some "config".toList
  | noDiagnostics => some "no-diagnostics".toList
  | help => some "help".toList
  | version => some "version".toList
  | directory => none

def short? : Parameter → Option Char
  | policy => some 'p'
  | maxDepth => some 'L'
  | config => some 'c'
  | help => some 'h'
  | version => some 'V'
  | _ => none

def all : List Parameter :=
  [policy, maxDepth, lister, stdin, sort, config, noDiagnostics, help, version, directory]

def ofLong? (name : Text) : Option Parameter := all.find? (·.long? == some name)

def ofShort? (c : Char) : Option Parameter := all.find? (·.short? == some c)

def usage : Parameter → Text
  | policy => "--policy <POLICY>".toList
  | maxDepth => "--max-depth <MAX_DEPTH>".toList
  | lister => "--lister <LISTER>".toList
  | stdin => "--stdin".toList
  | sort => "--sort".toList
  | config => "--config <CONFIG>".toList
  | noDiagnostics => "--no-diagnostics".toList
  | help => "--help".toList
  | version => "--version".toList
  | directory => "[DIRECTORY]".toList

theorem mem_all (p : Parameter) : p ∈ all := by cases p <;> decide

theorem ofLong?_of_long? {p : Parameter} {name : Text} (h : p.long? = some name) :
    ofLong? name = some p := by
  cases p <;> cases h <;> decide

theorem ofShort?_of_short? {p : Parameter} {c : Char} (h : p.short? = some c) :
    ofShort? c = some p := by
  cases p <;> cases h <;> decide

end Parameter

end Arguments

end PathSieve
