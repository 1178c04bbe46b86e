import PathSieve.Policy.Allowlist
import PathSieve.Policy.Denylist
import PathSieve.Settings

namespace PathSieve

inductive Policy where
  | denylist (list : Denylist)
  | allowlist (list : Allowlist)

namespace Policy

def build (settings : Settings) : Kind → Except PatternError Policy
  | .denylist =>
    .ok (.denylist (.override settings.exact settings.prefixes settings.suffixes))
  | .allowlist =>
    (Allowlist.compile (settings.patterns.getD Allowlist.defaultPatterns)).map .allowlist

def kind : Policy → Kind
  | denylist _ => .denylist
  | allowlist _ => .allowlist

def accepts : Policy → Text → Bool
  | denylist list => list.accepts
  | allowlist list => list.accepts

def captures (policy : Policy) (path : Text) : List Text :=
  if policy.accepts path then [path] else []

end Policy

end PathSieve
