import PathSieve.Text

namespace PathSieve.Regex

inductive Mode where
  | anyCase
  | lines
  | dotTakesAll
  | swapsGreed
  | unicode
  | carriageReturns
  | loose
  deriving DecidableEq, Repr

structure Switch where
  on : List Mode
  off : List Mode
  deriving DecidableEq, Repr

def Switch.apply (switch : Switch) (modes : List Mode) : List Mode :=
  switch.on ++ modes.filter (· ∉ switch.off)

inductive Anchor where
  | lineStart
  | lineEnd
  | textStart
  | textEnd
  | boundary
  | noBoundary
  | wordStart
  | wordEnd
  | wordStartHalf
  | wordEndHalf
  deriving DecidableEq, Repr

structure Literal where
  char : Char
  isByte : Bool
  deriving DecidableEq, Repr

inductive Shorthand where
  | digit
  | blank
  | word
  deriving DecidableEq, Repr

inductive ClassName where
  | alnum
  | alpha
  | ascii
  | blank
  | cntrl
  | digit
  | graph
  | lower
  | print
  | punct
  | space
  | upper
  | word
  | xdigit
  deriving DecidableEq, Repr

inductive ClassOperator where
  | intersection
  | difference
  | symmetricDifference
  deriving DecidableEq, Repr

mutual

inductive Member where
  | single (c : Literal)
  | range (low high : Literal)
  | named (isNegated : Bool) (name : ClassName)
  | shorthand (isNegated : Bool) (kind : Shorthand)
  | nested (isNegated : Bool) (body : ClassBody)

inductive ClassBody where
  | union (members : List Member)
  | combined (operator : ClassOperator) (left right : ClassBody)

end

inductive GroupKind where
  | captured
  | switching (switch : Switch)
  deriving DecidableEq, Repr

inductive Term where
  | empty
  | switch (switch : Switch)
  | literal (c : Literal)
  | dot
  | anchor (a : Anchor)
  | shorthand (isNegated : Bool) (kind : Shorthand)
  | bracketed (isNegated : Bool) (body : ClassBody)
  | group (kind : GroupKind) (inner : Term)
  | repetition (inner : Term) (least : Nat) (most : Option Nat)
  | concatenation (parts : List Term)
  | alternation (branches : List Term)

mutual

def Member.depth : Member → Nat
  | .nested _ body => body.depth + 1
  | _ => 0

def ClassBody.depth : ClassBody → Nat
  | .union members => Member.greatestDepth members + if 2 ≤ members.length then 1 else 0
  | .combined _ left right => max left.depth right.depth + 1

def Member.greatestDepth : List Member → Nat
  | [] => 0
  | m :: ms => max m.depth (Member.greatestDepth ms)

end

namespace Term

mutual

def depth : Term → Nat
  | bracketed _ body => body.depth + 1
  | group _ inner => inner.depth + 1
  | repetition inner _ _ => inner.depth + 1
  | concatenation parts => greatestDepth parts + 1
  | alternation branches => greatestDepth branches + 1
  | _ => 0

def greatestDepth : List Term → Nat
  | [] => 0
  | s :: ss => max s.depth (greatestDepth ss)

end

def ofParts : List Term → Term
  | [] => empty
  | [s] => s
  | ss => concatenation ss

def ofBranches : List Term → Term
  | [] => empty
  | [s] => s
  | ss => alternation ss

def isRepeatable : Term → Bool
  | empty | switch _ => false
  | _ => true

end Term

end PathSieve.Regex
