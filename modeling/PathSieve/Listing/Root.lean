import PathSieve.Failure
import PathSieve.Tree.World

namespace PathSieve.Listing

def root (world : World) (path : Bytes) : Except Failure World.Place :=
  match world.find? path with
  | .error .missing => .error (.rootMissing path)
  | .error cause => .error (.system cause)
  | .ok place =>
    match place.access? with
    | none => .error (.rootNotDirectory path)
    | some access => if access.canList then .ok place else .error (.system .denied)

end PathSieve.Listing
