import PathSieve.Failure
import PathSieve.Policy

namespace PathSieve.Settings

def ofBytes (diagnose : Text → Toml.Diagnosis) (path content : Bytes) : Except Failure Settings :=
  match Utf8.decode? content with
  | none => .error (.settingsUnreadable path .notUtf8)
  | some text => (ofText diagnose text).mapError (.settingsInvalid path)

-- A chosen policy comes before the one of the settings, and a denylist is the standard.
def kindFor (settings : Settings) (chosen : Option Policy.Kind) : Policy.Kind :=
  (chosen <|> settings.policy).getD .denylist

def policyFor (settings : Settings) (chosen : Option Policy.Kind) : Except Failure Policy :=
  (Policy.build settings (settings.kindFor chosen)).mapError .badPattern

end PathSieve.Settings
