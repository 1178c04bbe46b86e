import PathSieve.Text.Digits
import PathSieve.Text.Utf8

namespace PathSieve.Command.Print

def octal? (c : Char) : Option Nat :=
  if '0' ≤ c && c ≤ '7' then some (c.toNat - '0'.toNat) else none

def octal : (count : Nat) → (value : Nat) → Text → Nat × Text
  | 0, value, s => (value, s)
  | _ + 1, value, [] => (value, [])
  | count + 1, value, c :: s =>
    match octal? c with
    | some d => octal count (value * 8 + d) s
    | none => (value, c :: s)

theorem octal_length_le (count value : Nat) (s : Text) :
    (octal count value s).2.length ≤ s.length := by
  fun_induction octal count value s with
  | case1 => simp
  | case2 => simp
  | case3 _ _ _ _ _ _ ih => simp only [List.length_cons]; omega
  | case4 => simp

def shortEscape? : Char → Option UInt8
  | 'a' => some 7
  | 'b' => some 8
  | 't' => some 9
  | 'n' => some 10
  | 'v' => some 11
  | 'f' => some 12
  | 'r' => some 13
  | 'e' => some 27
  | '\\' => some 0x5C
  | _ => none

def escape? (isArgument : Bool) : Text → Option (UInt8 × Text)
  | [] => none
  | c :: s =>
    match shortEscape? c with
    | some b => some (b, s)
    | none =>
      match octal? c with
      | some d =>
        let (value, r) := octal (if isArgument && d = 0 then 3 else 2) d s
        some (UInt8.ofNat value, r)
      | none => none

theorem escape?_length_lt {isArgument : Bool} {s r : Text} {b : UInt8}
    (h : escape? isArgument s = some (b, r)) : r.length < s.length := by
  cases s with
  | nil => simp [escape?] at h
  | cons c s =>
    rw [escape?] at h
    split at h
    · cases h; simp
    · split at h
      · next d _ =>
        have := octal_length_le (if isArgument && d = 0 then 3 else 2) d s
        cases h
        simp only [List.length_cons]
        omega
      · simp at h

def plain (c : Char) : Bytes := Utf8.encode [c]

def unescape (s : Text) : Bytes × Bool :=
  match s with
  | [] => ([], false)
  | '\\' :: 'c' :: _ => ([], true)
  | '\\' :: s =>
    match h : escape? true s with
    | some (b, r) =>
      have := escape?_length_lt h
      let (out, isLast) := unescape r
      (b :: out, isLast)
    | none =>
      let (out, isLast) := unescape s
      (plain '\\' ++ out, isLast)
  | c :: s =>
    let (out, isLast) := unescape s
    (plain c ++ out, isLast)
termination_by s.length

def echo (args : List Bytes) : Bytes := Text.join [0x20] args ++ [0x0A]

def shellEcho (args : List Bytes) : Bytes :=
  let isSilent := args.head? == some (Utf8.encode "-n".toList)
  let (out, isLast) :=
    unescape (Utf8.decodeLossy (Text.join [0x20] (if isSilent then args.tail else args)))
  if isSilent || isLast then out else out ++ [0x0A]

end PathSieve.Command.Print
