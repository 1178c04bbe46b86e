import PathSieve.Settings
import PathSieve.Settings.Mismatch
import PathSieve.Toml.Document
import PathSieve.Toml.Excerpt

/-!
Reading settings from a TOML document. Entries are read in the order in which they stand, and the
first that does not fit is reported with the innermost place that is known.
-/
namespace PathSieve.Settings

open Toml

structure Complaint where
  span : Option Span
  cause : Mismatch
  deriving DecidableEq, Repr

abbrev Decoded (α : Type) := Except Complaint α

-- A complaint without a place gets this one.
def within {α : Type} (span : Option Span) (decoded : Decoded α) : Decoded α :=
  decoded.mapError fun c => { c with span := c.span <|> span }

def wrongType {α : Type} (expected : String) (node : Node) : Decoded α :=
  .error ⟨node.span?, .wrongType (.of node) expected.toList⟩

def text : Node → Decoded Text
  | .scalar _ (.string s) => .ok s
  | node => wrongType "a string" node

def texts : Node → Decoded (List Text)
  | .array span items => within (some span) (items.mapM text)
  | .tables items => within (Node.tables items).span? (items.mapM text)
  | node => wrongType "a sequence" node

def field {α : Type} (decode : Node → Decoded α) (key : Key) (node : Node) : Decoded α :=
  within (node.span? <|> some key.span) (decode node)

-- A section gives lists of texts by name. Written as an array it gives them in the order of their
-- names.
def lists (title : String) (names : List Text) (node : Node) : Decoded (List (Text × List Text)) :=
  let inOrder (items : List Node) : Decoded (List (Text × List Text)) :=
    within node.span? ((names.zip items).mapM fun (e : Text × Node) => (texts e.2).map (e.1, ·))
  match node with
  | .table span _ es =>
    within span (es.mapM fun (e : Key × Node) =>
      if names.contains e.1.name then (field texts e.1 e.2).map (e.1.name, ·)
      else .error ⟨some e.1.span, .unknownField e.1.name names⟩)
  | .array _ items => inOrder items
  | .tables items => inOrder items
  | .scalar span .moment =>
    .error ⟨some span, .unknownField "$__toml_private_datetime".toList names⟩
  | node => wrongType ("struct " ++ title) node

def listNames : List Text := ["exact", "prefixes", "suffixes"].map String.toList

def patternNames : List Text := ["patterns".toList]

def sectionNames : List Text :=
  ["policy".toList, Policy.Kind.denylist.name, Policy.Kind.allowlist.name]

def kindNames : List Text := [Policy.Kind.denylist.name, Policy.Kind.allowlist.name]

def kindNamed (span : Span) (name : Text) : Decoded Policy.Kind :=
  match Policy.Kind.ofName? name with
  | some kind => .ok kind
  | none => .error ⟨some span, .unknownVariant name kindNames⟩

def nothing (node : Node) : Decoded Unit :=
  let fail (cause : Mismatch) : Decoded Unit := .error ⟨node.span?, cause⟩
  match node with
  | .array _ [] => .ok ()
  | .table _ _ [] => .ok ()
  | .tables [] => .ok ()
  | .array _ _ => fail (.notEmpty "table".toList)
  | .table _ _ _ => fail (.notEmpty "table".toList)
  | .tables _ => fail (.notEmpty "array".toList)
  | .scalar _ (.string _) => fail (.notTable "string".toList)
  | .scalar _ (.integer _) => fail (.notTable "integer".toList)
  | .scalar _ (.float _) => fail (.notTable "float".toList)
  | .scalar _ (.boolean _) => fail (.notTable "boolean".toList)
  | .scalar _ .moment => fail (.notTable "datetime".toList)

def kind : Node → Decoded Policy.Kind
  | .scalar span (.string s) => kindNamed span s
  | .table span _ [] => .error ⟨span, .noVariant⟩
  | .table span _ [(key, value)] => within span do
    let kind ← kindNamed key.span key.name
    nothing value
    return kind
  | .table span _ _ => .error ⟨span, .manyVariants⟩
  | node => .error ⟨node.span?, .noStringOrTable⟩

def entry (settings : Settings) : Key × Node → Decoded Settings
  | (key, node) =>
    if key.name = "policy".toList then do
      let kind ← field kind key node
      return { settings with policy := some kind }
    else if key.name = Policy.Kind.denylist.name then do
      let found ← field (lists "DirectoryDenylistConfig" listNames) key node
      return { settings with
        exact := found.lookup "exact".toList
        prefixes := found.lookup "prefixes".toList
        suffixes := found.lookup "suffixes".toList }
    else if key.name = Policy.Kind.allowlist.name then do
      let found ← field (lists "KnownPathsConfig" patternNames) key node
      return { settings with patterns := found.lookup "patterns".toList }
    else .error ⟨some key.span, .unknownField key.name sectionNames⟩

def ofNode : Node → Decoded Settings
  | .table _ _ es => es.foldlM entry {}
  | node => wrongType "struct Config" node

inductive Fault where
  | malformed (document : Text) (diagnosis : Diagnosis)
  | mismatch (document : Text) (complaint : Complaint)
  deriving DecidableEq, Repr

namespace Fault

def span? : Fault → Option Span
  | malformed _ diagnosis => some diagnosis.span
  | mismatch _ complaint => complaint.span

def document : Fault → Text
  | malformed document _ => document
  | mismatch document _ => document

def cause : Fault → Text
  | malformed _ diagnosis => diagnosis.cause
  | mismatch _ complaint => complaint.cause.message

def message (fault : Fault) : Text :=
  (fault.span?.elim [] fun span => (Excerpt.of fault.document span).render) ++ fault.cause ++ ['\n']

end Fault

def ofText (diagnose : Text → Diagnosis) (document : Text) : Except Fault Settings :=
  match parse? document with
  | none => .error (.malformed document (diagnose document))
  | some node => (ofNode node).mapError (.mismatch document)

end PathSieve.Settings
