import PathSieve.Command.Pattern
import PathSieve.Text.Line
import PathSieve.Text.Utf8

namespace PathSieve.Command

structure Substitute where
  pattern : Pattern
  replacement : Text
  isGlobal : Bool
  deriving DecidableEq, Repr

namespace Substitute

def upTo? (mark : Char) : Text → Option (Text × Text)
  | [] => none
  | '\\' :: c :: s =>
    (upTo? mark s).map fun (t, r) => ((if c = mark then [c] else ['\\', c]) ++ t, r)
  | c :: s => if c = mark then some ([], s) else (upTo? mark s).map fun (t, r) => (c :: t, r)

def parse? : Text → Option Substitute
  | 's' :: mark :: s => do
    let (pattern, s) ← upTo? mark s
    let (replacement, flags) ← upTo? mark s
    if flags.all (· == 'g') then some ⟨.parse pattern, replacement, !flags.isEmpty⟩ else none
  | _ => none

def expand (matched : Text) : Text → Text
  | '\\' :: 'n' :: s => '\n' :: expand matched s
  | '\\' :: 't' :: s => '\t' :: expand matched s
  | '\\' :: c :: s => c :: expand matched s
  | '&' :: s => matched ++ expand matched s
  | c :: s => c :: expand matched s
  | [] => []

def inLine (sub : Substitute) : (fuel : Nat) → (atStart : Bool) → Text → Text
  | 0, _, s => s
  | fuel + 1, atStart, s =>
    match sub.pattern.after? atStart s, s with
    | none, [] => []
    | none, c :: s => c :: sub.inLine fuel false s
    | some r, s =>
      let put := expand (s.take (s.length - r.length)) sub.replacement
      if !sub.isGlobal then put ++ r
      else match r with
        | [] => put
        | c :: r' => if r.length = s.length then put ++ c :: sub.inLine fuel false r'
          else put ++ sub.inLine fuel false r

def apply (sub : Substitute) (input : Bytes) : Bytes :=
  let input := Utf8.decodeLossy input
  let ls := (Line.split '\n' input).map fun l => sub.inLine (l.length + 1) true l
  Utf8.encode (if input.getLast? = some '\n' then Line.unsplit '\n' ls else Text.join ['\n'] ls)

end Substitute

end PathSieve.Command
