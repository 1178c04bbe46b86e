import PathSieve.Refusal
import PathSieve.Text.Utf8

namespace PathSieve

structure Buffer where
  -- the texts in the buffer, the latest one first
  written : List Text
  -- the bytes that still fit, if there is a limit
  room : Option Nat
  -- what fitted of a text that was refused
  cut : Bytes := []
  deriving DecidableEq, Repr

namespace Buffer

def ofCapacity (capacity : Option Nat) : Buffer := { written := [], room := capacity }

def text (buffer : Buffer) : Text := buffer.written.reverse.flatten

def bytes (buffer : Buffer) : Bytes := Utf8.encode buffer.text ++ buffer.cut

/-- Gives the buffer after the text, or the full buffer that has no room for it. -/
def write (buffer : Buffer) (s : Text) : Except Buffer Buffer :=
  match buffer.room with
  | none => .ok { buffer with written := s :: buffer.written }
  | some room =>
    if Utf8.size s ≤ room then
      .ok { buffer with written := s :: buffer.written, room := some (room - Utf8.size s) }
    else .error { buffer with room := some 0, cut := buffer.cut ++ (Utf8.encode s).take room }

end Buffer

end PathSieve
