import PathSieve.Text

namespace PathSieve.Terminal

inductive Style where
  | plain
  | heading
  | literal
  | error
  | invalid
  deriving DecidableEq, Repr

namespace Style

def parameters : Style → List Nat
  | plain => []
  | heading => [1, 4]
  | literal => [1]
  | error => [1, 31]
  | invalid => [33]

end Style

def setting (parameter : Nat) : Text := '\x1b' :: '[' :: Text.decimal parameter ++ ['m']

structure Span where
  style : Style
  text : Text
  deriving DecidableEq, Repr

namespace Span

def plain (text : Text) : Span := ⟨.plain, text⟩

def render (span : Span) : Text :=
  if span.style = .plain then span.text
  else span.style.parameters.flatMap setting ++ span.text ++ setting 0

end Span

abbrev Styled := List Span

def render (s : Styled) : Text := s.flatMap Span.render

end PathSieve.Terminal
