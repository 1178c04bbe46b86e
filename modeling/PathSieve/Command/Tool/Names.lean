import PathSieve.Command.Tool.Call

namespace PathSieve.Command.Tool

open Find (newline)

def withoutEnd (ending name : Bytes) : Bytes :=
  if ending.isSuffixOf name && ending.length < name.length then
    name.take (name.length - ending.length)
  else name

def directoryName (path : Bytes) : Bytes :=
  let front := ((World.pieces path).filter (!·.isEmpty)).dropLast
  if Path.isAbsolute path then Path.slash :: Text.join [Path.slash] front
  else if front.isEmpty then [Path.dot]
  else Text.join [Path.slash] front

def base (call : Call) (found : Options.Found) : Outcome :=
  match found.operands with
  | [] => call.refuse "missing operand".toList
  | [path] => .success (ofLines [Find.lastName path])
  | [path, ending] => .success (ofLines [withoutEnd ending (Find.lastName path)])
  | _ :: _ :: extra :: _ => call.refuse ("extra operand '".toList ++ text extra ++ ['\''])

def marked (found : Options.Found) (name : Bytes) (t : Tree) : Bytes :=
  match t with
  | .directory _ _ => if found.has 'p' || found.has 'F' then name ++ [Path.slash] else name
  | .link _ => if found.has 'F' then name ++ [0x40] else name
  | .file _ isExecutable _ => if found.has 'F' && isExecutable then name ++ [0x2A] else name

def inDirectory (found : Options.Found) (es : List (Bytes × Tree)) : Bytes :=
  let dots : List (Bytes × Tree) :=
    [[Path.dot], [Path.dot, Path.dot]].map fun name => (name, .empty)
  let isShown (e : Bytes × Tree) : Bool :=
    found.has 'A' || found.has 'a' || e.1.head? != some Path.dot
  let es := (if found.has 'a' then dots else []) ++ es.filter isShown
  let es := es.mergeSort fun a b => a.1 ≤ b.1
  ofLines ((if found.has 'r' then es.reverse else es).map fun (name, t) => marked found name t)

def ls (call : Call) (found : Options.Found) : Outcome :=
  let paths := if found.operands.isEmpty then [[Path.dot]] else found.operands
  let seen := paths.map fun path => (path, call.world.find? path)
  let missing := seen.filterMap fun
    | (path, .error cause) =>
      some { call.fail ("cannot access '".toList ++ Path.display path ++ "': ".toList ++
        cause.description) with status := .exit 2 }
    | _ => none
  let isListed : Tree → Bool
    | .directory _ _ => !found.has 'd'
    | _ => false
  let present := seen.filterMap fun (path, place) => (place.toOption).map fun p => (path, p.tree)
  let files := (present.filter (!isListed ·.2)).map fun (path, t) => marked found path t
  let directories := (present.filter (isListed ·.2)).map fun (path, t) =>
    let content := match t with
      | .directory es _ => inDirectory found es
      | _ => []
    if paths.length = 1 then content else path ++ [0x3A, newline] ++ content
  let parts := (if files.isEmpty then [] else [ofLines files]) ++ directories
  missing.foldr Outcome.andThen (.success (Text.join [newline] parts))

end PathSieve.Command.Tool
