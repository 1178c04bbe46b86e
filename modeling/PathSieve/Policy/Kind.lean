import PathSieve.Text

namespace PathSieve.Policy

inductive Kind where
  | denylist
  | allowlist
  deriving DecidableEq, Repr

namespace Kind

def name : Kind → Text
  | denylist => "directory-denylist".toList
  | allowlist => "known-paths".toList

def label : Kind → Text
  | denylist => "DirectoryDenylist".toList
  | allowlist => "KnownPaths".toList

def ofName? (s : Text) : Option Kind :=
  if s = denylist.name then some denylist
  else if s = allowlist.name then some allowlist
  else none

theorem ofName?_name (kind : Kind) : ofName? kind.name = some kind := by cases kind <;> decide

end Kind

end PathSieve.Policy
