import PathSieve.Toml.Number

namespace PathSieve.Toml

def field? (count low high : Nat) (s : Text) : Option (Nat × Text) :=
  let ds := s.take count
  let n := valueIn 10 ds
  if ds.length = count && ds.all isDigit && low ≤ n && n ≤ high then some (n, s.drop count)
  else none

def char? (c : Char) : Text → Option Text
  | [] => none
  | d :: s => if d = c then some s else none

def daysIn (year month : Nat) : Nat :=
  let leap := year % 4 = 0 && (year % 100 != 0 || year % 400 = 0)
  if month = 2 then (if leap then 29 else 28)
  else if month ∈ [4, 6, 9, 11] then 30
  else 31

def date? (s : Text) : Option Text := do
  let (year, s) ← field? 4 0 9999 s
  let s ← char? '-' s
  let (month, s) ← field? 2 1 12 s
  let s ← char? '-' s
  let (_, s) ← field? 2 1 (daysIn year month) s
  some s

def time? (s : Text) : Option Text := do
  let (_, s) ← field? 2 0 23 s
  let s ← char? ':' s
  let (_, s) ← field? 2 0 59 s
  let s ← char? ':' s
  let (_, s) ← field? 2 0 60 s
  match s with
  | '.' :: c :: r => if isDigit c then some (r.dropWhile isDigit) else some s
  | _ => some s

def offset? : Text → Option Text
  | 'Z' :: s => some s
  | 'z' :: s => some s
  | c :: s =>
    if c = '+' || c = '-' then do
      let (_, s) ← field? 2 0 23 s
      let s ← char? ':' s
      let (_, s) ← field? 2 0 59 s
      some s
    else none
  | [] => none

def moment? (s : Text) : Option Text :=
  match date? s with
  | some r =>
    let withTime := match r with
      | c :: r' => if c = 'T' || c = 't' || c = ' ' then time? r' else none
      | [] => none
    match withTime with
    | some r => some ((offset? r).getD r)
    | none => some r
  | none => time? s

end PathSieve.Toml
