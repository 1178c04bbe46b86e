import PathSieve.Policy.Kind

namespace PathSieve

-- A list that is missing keeps its standard value, one that is there replaces it.
structure Settings where
  policy : Option Policy.Kind := none
  exact : Option (List Text) := none
  prefixes : Option (List Text) := none
  suffixes : Option (List Text) := none
  patterns : Option (List Text) := none
  deriving DecidableEq, Repr

end PathSieve
