import PathSieve.Command.Print
import PathSieve.Text.Blank

namespace PathSieve.Command.Print

structure Conversion where
  source : Text
  marks : Text
  width : Option Nat
  precision : Option Nat
  kind : Char
  deriving DecidableEq, Repr

inductive Piece where
  | bytes (bs : Bytes)
  | conversion (c : Conversion)
  | unfinished
  deriving DecidableEq, Repr

def takeDigits (s : Text) : Option Nat × Text :=
  (Text.ofDecimal? (s.takeWhile Char.isDigit), s.dropWhile Char.isDigit)

def conversion? (s : Text) : Option (Conversion × Text) :=
  let marks := s.takeWhile (· ∈ ['#', '-', '+', ' ', '0'])
  let (width, r) := takeDigits (s.dropWhile (· ∈ ['#', '-', '+', ' ', '0']))
  let (precision, r) := match r with
    | '.' :: r => (some ((takeDigits r).1.getD 0), (takeDigits r).2)
    | r => (none, r)
  match r with
  | kind :: r => some (⟨'%' :: s.take (s.length - r.length), marks, width, precision, kind⟩, r)
  | [] => none

def pieces : (fuel : Nat) → Text → List Piece
  | 0, _ | _, [] => []
  | fuel + 1, '%' :: '%' :: s => .bytes (plain '%') :: pieces fuel s
  | fuel + 1, '%' :: s =>
    match conversion? s with
    | some (c, r) => .conversion c :: pieces fuel r
    | none => [.unfinished]
  | fuel + 1, '\\' :: s =>
    match escape? false s with
    | some (b, r) => .bytes [b] :: pieces fuel r
    | none => .bytes (plain '\\') :: pieces fuel s
  | fuel + 1, c :: s => .bytes (plain c) :: pieces fuel s

def pad (c : Conversion) (s : Bytes) : Bytes :=
  let missing := c.width.getD 0 - s.length
  if '-' ∈ c.marks then s ++ List.replicate missing 0x20
  else List.replicate missing 0x20 ++ s

def digitsOf (base : Nat) (isUpper : Bool) (n : Nat) : Text :=
  let ds := Nat.toDigits base n
  if isUpper then ds.map Char.toUpper else ds

def signOf (c : Conversion) (n : Int) : Text :=
  if n < 0 then ['-'] else if '+' ∈ c.marks then ['+'] else if ' ' ∈ c.marks then [' '] else []

def number (c : Conversion) (sign : Text) (digits : Text) : Bytes :=
  let fill := if '0' ∈ c.marks && '-' ∉ c.marks && c.precision.isNone then
    c.width.getD 0 - sign.length else 0
  let zeros := max (c.precision.getD 1) fill - digits.length
  pad c (Utf8.encode (sign ++ List.replicate zeros '0' ++ digits))

inductive Fault where
  | noNumber (arg : Bytes)
  | trailing (arg : Bytes)
  | outOfRange (arg : Bytes)
  | badDirective (directive : Text)
  | unfinished
  | noFormat
  | badOption (option : Bytes)
  deriving DecidableEq, Repr

namespace Fault

def message : Fault → Text
  | noNumber arg => Utf8.decodeLossy arg ++ ": expected numeric value".toList
  | trailing arg => Utf8.decodeLossy arg ++ ": not completely converted".toList
  | outOfRange arg => Utf8.decodeLossy arg ++ ": Numerical result out of range".toList
  | badDirective directive => directive ++ ": invalid directive".toList
  | unfinished => "missing format character".toList
  | noFormat => "usage: printf format [arg ...]".toList
  | badOption option => "Illegal option ".toList ++ Utf8.decodeLossy (option.take 2)

def status : Fault → Nat
  | noNumber _ | trailing _ | outOfRange _ => 1
  | _ => 2

end Fault

def natural (s : Text) : Option Nat × Text :=
  let read (base : Nat) (digit? : Char → Option Nat) (s : Text) : Option Nat × Text :=
    let ds := (s.takeWhile fun c => (digit? c).isSome).filterMap digit?
    (if ds.isEmpty then none else some (Text.valueOf base ds), s.drop ds.length)
  let isHexadecimal := s.head? == some '0' && (s[1]? == some 'x' || s[1]? == some 'X') &&
    (s[2]?.bind Text.hexDigit?).isSome
  if isHexadecimal then read 16 Text.hexDigit? (s.drop 2)
  else if s.head? == some '0' then read 8 octal? s
  else read 10 Text.decimalDigit? s

def leastInteger : Int := -9223372036854775808

def greatestInteger : Int := 9223372036854775807

def valueOf (arg : Bytes) : Int × List Fault :=
  let s := (Utf8.decodeLossy arg).dropWhile Text.isBlank
  match arg with
  | 0x27 :: b :: _ | 0x22 :: b :: _ => (b.toNat, [])
  | [] => (0, [])
  | arg =>
    let isNegative := s.head? == some '-'
    let (n, rest) := natural (if isNegative || s.head? == some '+' then s.tail else s)
    match n with
    | none => (0, [.noNumber arg])
    | some n =>
      let value := if isNegative then -(n : Int) else n
      let kept := max leastInteger (min greatestInteger value)
      (kept, if !rest.isEmpty then [.trailing arg]
        else if kept != value then [.outOfRange arg] else [])

def unsigned (n : Int) : Nat := (n % 18446744073709551616).toNat

structure Printed where
  out : Bytes := []
  faults : List Fault := []
  isLast : Bool := false

def Printed.before (p q : Printed) : Printed :=
  { out := p.out ++ q.out, faults := p.faults ++ q.faults, isLast := q.isLast }

def Conversion.apply (c : Conversion) (arg : Option Bytes) : Printed :=
  let s := arg.getD []
  let (n, faults) := valueOf s
  let cut (s : Bytes) : Bytes := s.take (c.precision.getD s.length)
  let mark (s : String) : Text := if '#' ∈ c.marks && n != 0 then s.toList else []
  let numeric (sign digits : Text) : Printed := { out := number c sign digits, faults }
  match c.kind with
  | 's' => { out := pad c (cut s) }
  | 'b' =>
    let (out, isLast) := unescape (Utf8.decodeLossy s)
    { out := pad c (cut out), isLast }
  | 'c' => { out := pad c (s.take 1) }
  | 'd' | 'i' => numeric (signOf c n) (digitsOf 10 false n.natAbs)
  | 'u' => numeric [] (digitsOf 10 false (unsigned n))
  | 'o' => numeric (mark "0") (digitsOf 8 false (unsigned n))
  | 'x' => numeric (mark "0x") (digitsOf 16 false (unsigned n))
  | 'X' => numeric (mark "0X") (digitsOf 16 true (unsigned n))
  | _ => { faults := [.badDirective c.source], isLast := true }

def pass : List Piece → List Bytes → Printed × List Bytes
  | [], args => ({}, args)
  | .bytes bs :: ps, args =>
    let (printed, rest) := pass ps args
    ({ printed with out := bs ++ printed.out }, rest)
  | .unfinished :: _, args => ({ faults := [.unfinished], isLast := true }, args)
  | .conversion c :: ps, args =>
    let here := c.apply args.head?
    if here.isLast then (here, args.tail)
    else
      let (printed, rest) := pass ps args.tail
      (here.before printed, rest)

def formatted : (fuel : Nat) → List Piece → List Bytes → Printed
  | 0, _, _ => {}
  | fuel + 1, ps, args =>
    let (printed, rest) := pass ps args
    if printed.isLast || rest.isEmpty || rest.length = args.length then printed
    else printed.before (formatted fuel ps rest)

def printf : List Bytes → Printed
  | [] => { faults := [.noFormat] }
  | format :: args =>
    let isOption := format.head? == some 0x2D && format.length != 1
    let endsOptions := format = [0x2D, 0x2D]
    if isOption && !endsOptions then { faults := [.badOption format] }
    else match if endsOptions then args else format :: args with
      | [] => { faults := [.noFormat] }
      | format :: args =>
        formatted (args.length + 1) (pieces (format.length + 1) (Utf8.decodeLossy format)) args

end PathSieve.Command.Print
