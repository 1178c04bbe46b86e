import PathSieve.Text

namespace PathSieve.Command.Script

inductive Fallback where
  | default
  | assigned
  | replacing
  | complaint
  deriving DecidableEq, Repr

inductive Expansion where
  | value (name : Text)
  | valueOr (name : Text) (kind : Fallback) (needsContent : Bool) (other : Text)
  | size (name : Text)
  | trimmed (name : Text) (atFront isLongest : Bool) (pattern : Text)
  | output (script : Text)
  | number (expression : Text)
  deriving DecidableEq, Repr

inductive Segment where
  | text (s : Text) (isQuoted : Bool)
  | expansion (e : Expansion) (isQuoted : Bool)
  deriving DecidableEq, Repr

abbrev Word := List Segment

def Segment.plain? : Segment → Option Text
  | text s false => some s
  | _ => none

def plain? (w : Word) : Option Text := (w.mapM Segment.plain?).map List.flatten

inductive Redirection where
  | toFile (descriptor : Nat) (appends : Bool) (file : Word)
  | toDescriptor (descriptor target : Nat)
  | fromFile (file : Word)
  | fromText (content : Word)
  deriving DecidableEq, Repr

inductive Condition where
  | onSuccess
  | onFailure
  deriving DecidableEq, Repr

inductive Node where
  | simple (line : Nat) (assignments : List (Text × Word)) (words : List Word)
  | redirected (inner : Node) (redirections : List Redirection)
  | pipeline (isNegated : Bool) (stages : List Node)
  | joined (condition : Condition) (left right : Node)
  | sequence (nodes : List Node)
  | subshell (inner : Node)
  | forEach (name : Text) (words : List Word) (body : Node)
  | branch (condition body otherwise : Node)
  | choose (word : Word) (cases : List (List Word × Node))
  | define (name : Text) (body : Node)
  | loop (isUntil : Bool) (condition body : Node)

structure Fault where
  line : Nat
  message : Text
  deriving DecidableEq, Repr

end PathSieve.Command.Script
