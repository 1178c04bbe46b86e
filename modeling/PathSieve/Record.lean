import PathSieve.Path.Listed
import PathSieve.Policy
import PathSieve.Text.Quoted

namespace PathSieve

structure Record where
  raw : Text
  normalized : Text
  captures : List Text
  deriving DecidableEq, Repr

namespace Record

def evaluate (policy : Policy) (raw : Text) : Record :=
  ⟨raw, Listed.strip raw, policy.captures (Listed.strip raw)⟩

def matched (record : Record) : Bool := !record.captures.isEmpty

def diagnostic (record : Record) : Text := Quoted.list record.captures

def verdict (record : Record) : Text :=
  record.normalized ++ if record.matched then ", True".toList else ", False".toList

def render (diagnostics : Bool) (record : Record) : Text :=
  (if diagnostics then record.diagnostic ++ ['\n'] else []) ++ record.verdict ++ ['\n']

def pieces (diagnostics : Bool) (record : Record) : List Text :=
  (if diagnostics then [record.diagnostic, ['\n']] else []) ++
    [record.normalized, ", ".toList, if record.matched then "True".toList else "False".toList,
      ['\n']]

theorem flatten_pieces (diagnostics : Bool) (record : Record) :
    (record.pieces diagnostics).flatten = record.render diagnostics := by
  cases diagnostics <;> cases h : record.matched <;> simp [pieces, render, verdict, h]

theorem matched_evaluate (policy : Policy) (raw : Text) :
    (evaluate policy raw).matched = policy.accepts (Listed.strip raw) := by
  simp only [evaluate, matched, Policy.captures]
  split <;> simp_all

end Record

end PathSieve
