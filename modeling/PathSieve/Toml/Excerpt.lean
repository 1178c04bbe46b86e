import PathSieve.Toml.Node
import PathSieve.Text.Utf8

namespace PathSieve.Toml

structure Diagnosis where
  span : Span
  cause : Text
  deriving DecidableEq, Repr

/-- A stretch within its document: what stands before it on its line, the line from there on, the
number of lines before it, and its length in bytes. -/
structure Excerpt where
  line : Nat
  before : Text
  after : Text
  bytes : Nat

namespace Excerpt

def isNewline (c : Char) : Bool := c = '\n'

def of (document : Text) (span : Span) : Excerpt where
  line := (document.take (document.length - span.start)).countP isNewline
  before :=
    ((document.take (document.length - span.start)).reverse.takeWhile (!isNewline ·)).reverse
  after := (document.drop (document.length - span.start)).takeWhile (!isNewline ·)
  bytes := (Utf8.encode
    ((document.drop (document.length - span.start)).take (span.start - span.stop))).length

-- At least one caret; they stop at the end of the line, whose length is counted in bytes.
def carets (e : Excerpt) : Nat :=
  max 1 (min e.bytes ((Utf8.encode (e.before ++ e.after)).length - e.before.length))

def render (e : Excerpt) : Text :=
  let number := Text.decimal (e.line + 1)
  let gutter := List.replicate (number.length + 1) ' ' ++ ['|']
  "TOML parse error at line ".toList ++ number ++ ", column ".toList ++
    Text.decimal (e.before.length + 1) ++ '\n' :: gutter ++ '\n' :: number ++ " | ".toList ++
    e.before ++ e.after ++ '\n' :: gutter ++ List.replicate (e.before.length + 1) ' ' ++
    List.replicate e.carets '^' ++ ['\n']

end Excerpt

end PathSieve.Toml
