import PathSieve.Text

/-!
Listed paths: the one-line form in which an entry is listed, and the path it stands for. `render`
writes `./` in front and a slash behind a directory; `strip` takes the `./` away again.
-/
namespace PathSieve.Listed

def mark : Text := ['.', '/']

/-- Backslashes become slashes and the slashes at the end go, so that nothing but `isDirectory`
decides on the last character. -/
def clean (rel : Text) : Text :=
  Text.dropEndWhile (· == '/') (rel.map fun c => if c = '\\' then '/' else c)

-- The root, whose path is empty, is `./` whatever it is.
def render (rel : Text) (isDirectory : Bool) : Text :=
  if (clean rel).isEmpty then mark
  else mark ++ clean rel ++ if isDirectory then ['/'] else []

def strip : Text → Text
  | ['.'] => []
  | '.' :: '/' :: path => path
  | raw => raw

theorem strip_mark_append (path : Text) : strip (mark ++ path) = path := rfl

theorem strip_render (rel : Text) (isDirectory : Bool) :
    strip (render rel isDirectory) =
      if (clean rel).isEmpty then [] else clean rel ++ if isDirectory then ['/'] else [] := by
  unfold render
  split
  · rfl
  · rw [List.append_assoc, strip_mark_append]

end PathSieve.Listed
