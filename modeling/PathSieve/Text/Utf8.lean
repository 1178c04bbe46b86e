import PathSieve.Text

/-!
UTF-8. `decode?` accepts well-formed bytes only, and `decodeLossy` puts U+FFFD in the place of each
maximal ill-formed part. `encode` is read back by both.
-/
namespace PathSieve.Utf8

def encode (s : Text) : Bytes := s.flatMap String.utf8EncodeChar

def size (s : Text) : Nat := (encode s).length

def isTail (b : UInt8) : Bool := 0x80 ≤ b && b ≤ 0xBF

/-- What may follow a first byte above ASCII: the bounds of the second byte, then the number of
further bytes. The bounds keep out overlong forms, surrogates and values past U+10FFFF. -/
def shape? (lead : UInt8) : Option (UInt8 × UInt8 × Nat) :=
  if lead < 0xC2 then none
  else if lead ≤ 0xDF then some (0x80, 0xBF, 0)
  else if lead = 0xE0 then some (0xA0, 0xBF, 1)
  else if lead = 0xED then some (0x80, 0x9F, 1)
  else if lead ≤ 0xEF then some (0x80, 0xBF, 1)
  else if lead = 0xF0 then some (0x90, 0xBF, 2)
  else if lead ≤ 0xF3 then some (0x80, 0xBF, 2)
  else if lead = 0xF4 then some (0x80, 0x8F, 2)
  else none

def finish : Nat → Nat → Bytes → Option Char × Bytes
  | 0, acc, rest => (some (Char.ofNat acc), rest)
  | _ + 1, _, [] => (none, [])
  | n + 1, acc, b :: rest =>
    if isTail b then finish n (acc * 64 + b.toNat % 64) rest else (none, b :: rest)

def leadBits (n : Nat) (lead : UInt8) : Nat := lead.toNat % (32 >>> n)

def second (low high : UInt8) (n bits : Nat) : Bytes → Option Char × Bytes
  | [] => (none, [])
  | b :: rest =>
    if low ≤ b && b ≤ high then finish n (bits * 64 + b.toNat % 64) rest else (none, b :: rest)

def next (lead : UInt8) (rest : Bytes) : Option Char × Bytes :=
  if lead < 0x80 then (some (Char.ofNat lead.toNat), rest)
  else match shape? lead with
    | none => (none, rest)
    | some (low, high, n) => second low high n (leadBits n lead) rest

theorem finish_length_le (n acc : Nat) (rest : Bytes) :
    (finish n acc rest).2.length ≤ rest.length := by
  fun_induction finish n acc rest with
  | case1 => simp
  | case2 => simp
  | case3 n acc b rest h ih => simp only [List.length_cons]; omega
  | case4 => simp

theorem second_length_le (low high : UInt8) (n bits : Nat) (rest : Bytes) :
    (second low high n bits rest).2.length ≤ rest.length := by
  cases rest with
  | nil => simp [second]
  | cons b rest =>
    rw [second]
    split
    · have := finish_length_le n (bits * 64 + b.toNat % 64) rest
      simp only [List.length_cons]
      omega
    · simp

theorem next_length_le (lead : UInt8) (rest : Bytes) : (next lead rest).2.length ≤ rest.length := by
  rw [next]
  split
  · simp
  · split
    · simp
    · exact second_length_le _ _ _ _ _

def scan : Bytes → List (Option Char)
  | [] => []
  | b :: rest => (next b rest).1 :: scan (next b rest).2
termination_by s => s.length
decreasing_by
  have := next_length_le b rest
  simp only [List.length_cons]
  omega

def decode? (s : Bytes) : Option Text := (scan s).mapM id

def decodeLossy (s : Bytes) : Text := (scan s).map (·.getD '\uFFFD')

def isValid (s : Bytes) : Bool := (scan s).all (·.isSome)

theorem scan_nil : scan [] = [] := by rw [scan]

theorem scan_cons (b : UInt8) (rest : Bytes) :
    scan (b :: rest) = (next b rest).1 :: scan (next b rest).2 := by rw [scan]

end PathSieve.Utf8
