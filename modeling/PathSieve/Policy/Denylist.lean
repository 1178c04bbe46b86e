import PathSieve.Text

namespace PathSieve

structure Denylist where
  exact : List Text
  prefixes : List Text
  suffixes : List Text
  deriving DecidableEq, Repr

namespace Denylist

def denies (list : Denylist) (path : Text) : Bool :=
  list.exact.contains path || list.prefixes.any (·.isPrefixOf path) ||
    list.suffixes.any (·.isSuffixOf path)

def accepts (list : Denylist) (path : Text) : Bool :=
  ['/'].isSuffixOf path && !list.denies path

def standard : Denylist where
  exact := [".gitignore", "OWNERS", "LICENSE"].map String.toList
  prefixes := [".tekton/".toList]
  suffixes := [".md".toList]

-- Each list that is given replaces the standard one as a whole.
def override (exact prefixes suffixes : Option (List Text)) : Denylist where
  exact := exact.getD standard.exact
  prefixes := prefixes.getD standard.prefixes
  suffixes := suffixes.getD standard.suffixes

theorem accepts_iff {list : Denylist} {path : Text} :
    list.accepts path = true ↔ ['/'] <:+ path ∧ path ∉ list.exact ∧
      (∀ p ∈ list.prefixes, ¬ p <+: path) ∧ ∀ s ∈ list.suffixes, ¬ s <:+ path := by
  simp [accepts, denies, and_assoc]

end Denylist

end PathSieve
