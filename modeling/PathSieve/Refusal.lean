import PathSieve.Text

namespace PathSieve

inductive Refusal where
  | missing
  | badFormat
  | denied
  | notDirectory
  | isDirectory
  | nameTooLong
  | tooManyLinks
  | nulInName
  | nulInArgument
  | notUtf8
  | noRoom
  deriving DecidableEq, Repr

namespace Refusal

def description : Refusal → Text
  | missing => "No such file or directory".toList
  | badFormat => "Exec format error".toList
  | denied => "Permission denied".toList
  | notDirectory => "Not a directory".toList
  | isDirectory => "Is a directory".toList
  | nameTooLong => "File name too long".toList
  | tooManyLinks => "Too many levels of symbolic links".toList
  | nulInName => "file name contained an unexpected NUL byte".toList
  | nulInArgument => "nul byte found in provided data".toList
  | notUtf8 => "stream did not contain valid UTF-8".toList
  | noRoom => "failed to write whole buffer".toList

def number? : Refusal → Option Nat
  | missing => some 2
  | badFormat => some 8
  | denied => some 13
  | notDirectory => some 20
  | isDirectory => some 21
  | nameTooLong => some 36
  | tooManyLinks => some 40
  | _ => none

def message (cause : Refusal) : Text :=
  cause.description ++
    match cause.number? with
    | some n => " (os error ".toList ++ Text.decimal n ++ [')']
    | none => []

end Refusal

end PathSieve
