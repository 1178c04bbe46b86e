import PathSieve.Text.Utf8
import PathSieve.Text.Unprintable
import PathSieve.Text.Extending

/-!
Quoted texts: one line of printable characters between double quotes. A quote, a backslash and
every character that does not show is written as an escape, so the text can be read back: `unquote?`
is the reader, and it knows nothing of the tables that decide which characters are escaped.
-/
namespace PathSieve.Quoted

def shortEscape? : Char → Option Char
  | '\x00' => some '0'
  | '\t' => some 't'
  | '\n' => some 'n'
  | '\r' => some 'r'
  | '"' => some '"'
  | '\\' => some '\\'
  | _ => none

-- Printable ASCII shows; beyond it the tables decide.
def isHidden (c : Char) : Bool :=
  if 0x20 ≤ c.toNat && c.toNat ≤ 0x7E then false
  else Text.isExtending c || Text.isUnprintable c

def codeEscape (c : Char) : Text :=
  ['\\', 'u', '\x7b'] ++ Text.hexadecimal c.toNat ++ ['\x7d']

def escape (c : Char) : Text :=
  match shortEscape? c with
  | some e => ['\\', e]
  | none => if isHidden c then codeEscape c else [c]

def quote (s : Text) : Text := '"' :: s.flatMap escape ++ ['"']

def list (ss : List Text) : Text := '[' :: Text.join [',', ' '] (ss.map quote) ++ [']']

def byteEscape (b : UInt8) : Text :=
  let digit (n : Nat) : Char := (Nat.digitChar n).toUpper
  ['\\', 'x', digit (b.toNat / 16), digit (b.toNat % 16)]

def spelled : Bytes → List (Option Char × Bytes)
  | [] => []
  | b :: rest =>
    let read := Utf8.next b rest
    (read.1, (b :: rest).take (rest.length + 1 - read.2.length)) :: spelled read.2
termination_by s => s.length
decreasing_by
  have := Utf8.next_length_le b rest
  simp only [List.length_cons]
  omega

def quoteName (name : Bytes) : Text :=
  let piece : Option Char × Bytes → Text
    | (some c, _) => escape c
    | (none, bytes) => bytes.flatMap byteEscape
  '"' :: (spelled name).flatMap piece ++ ['"']

section Reader

def longEscape? : Char → Option Char
  | '0' => some '\x00'
  | 't' => some '\t'
  | 'n' => some '\n'
  | 'r' => some '\r'
  | '"' => some '"'
  | '\\' => some '\\'
  | _ => none

def hexDigit? (c : Char) : Option Nat :=
  if '0' ≤ c && c ≤ '9' then some (c.toNat - '0'.toNat)
  else if 'a' ≤ c && c ≤ 'f' then some (c.toNat - 'a'.toNat + 10)
  else none

inductive Stage where
  | plain
  | backslash
  | code
  | digits (value : Nat)

def read? : Stage → Text → Option (Text × Text)
  | .plain, '"' :: s => some ([], s)
  | .plain, '\\' :: s => read? .backslash s
  | .plain, c :: s => (read? .plain s).map fun (t, r) => (c :: t, r)
  | .backslash, 'u' :: s => read? .code s
  | .backslash, c :: s => do
    let e ← longEscape? c
    let (t, r) ← read? .plain s
    some (e :: t, r)
  | .code, c :: s => if c = '\x7b' then read? (.digits 0) s else none
  | .digits n, c :: s =>
    if c = '\x7d' then (read? .plain s).map fun (t, r) => (Char.ofNat n :: t, r)
    else do
      let d ← hexDigit? c
      read? (.digits (n * 16 + d)) s
  | _, [] => none

def unquote? : Text → Option (Text × Text)
  | '"' :: s => read? .plain s
  | _ => none

def elements? : Nat → Text → Option (List Text × Text)
  | 0, _ => none
  | fuel + 1, s => do
    let (t, r) ← unquote? s
    match r with
    | ']' :: r => some ([t], r)
    | ',' :: ' ' :: r => do
      let (ts, r) ← elements? fuel r
      some (t :: ts, r)
    | _ => none

def unlist? : Text → Option (List Text)
  | ['[', ']'] => some []
  | '[' :: s => do
    let (ts, r) ← elements? s.length s
    if r.isEmpty then some ts else none
  | _ => none

end Reader

theorem longEscape?_of_shortEscape? {c e : Char} (h : shortEscape? c = some e) :
    longEscape? e = some c := by
  unfold shortEscape? at h
  split at h <;> simp_all [longEscape?] <;> subst h <;> rfl

end PathSieve.Quoted
