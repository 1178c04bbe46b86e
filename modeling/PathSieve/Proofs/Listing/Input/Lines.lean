import PathSieve.Proofs.Listing.Input

namespace PathSieve.Listing.Input

structure IsPath (path : Text) : Prop where
  newline_notMem : '\n' ∉ path
  getLast?_ne : path.getLast? ≠ some '\r'
  exists_not_blank : ∃ c ∈ path, Text.isBlank c = false

inductive Holds : List Bytes → List Text → Prop
  | nil : Holds [] []
  | path {path : Text} {lines : List Bytes} {paths : List Text} (returns : ℕ) :
      IsPath path → Holds lines paths →
      Holds (Utf8.encode (path ++ List.replicate returns '\r') :: lines) (path :: paths)
  | blank {line : Text} {lines : List Bytes} {paths : List Text} :
      (∀ c ∈ line, Text.isBlank c) → Holds lines paths → Holds (Utf8.encode line :: lines) paths

variable {line path : Text}

lemma path?_append_returns (line : Text) (n : ℕ) :
    path? (line ++ List.replicate n '\r') = path? line := by
  have hreturns : ∀ c ∈ List.replicate n '\r', (c == '\r') = true := by simp
  rw [path?, path?, Text.dropEndWhile_append_of_all hreturns]

lemma path?_of_isPath (h : IsPath path) : path? path = some path :=
  path?_eq_self h.getLast?_ne h.exists_not_blank

lemma exists_returns (line : Text) :
    ∃ n, line = Text.dropEndWhile (· == '\r') line ++ List.replicate n '\r' := by
  obtain ⟨returns, hreturns, hline⟩ := Text.exists_dropEndWhile (· == '\r') line
  refine ⟨returns.length, ?_⟩
  rw [← List.eq_replicate_of_mem fun c hc => beq_iff_eq.mp (hreturns c hc)]
  exact hline

lemma path?_eq_none : path? line = none ↔ ∀ c ∈ line, Text.isBlank c := by
  obtain ⟨n, hline⟩ := exists_returns line
  have hreturn : Text.isBlank '\r' = true := by decide
  have hboth : (∀ c ∈ line, Text.isBlank c) ↔
      ∀ c ∈ Text.dropEndWhile (· == '\r') line, Text.isBlank c := by
    conv_lhs => rw [hline, List.forall_mem_append]
    refine and_iff_left fun c hc => ?_
    rw [List.eq_of_mem_replicate hc, hreturn]
  rw [hboth, ← trim_eq_nil, ← List.isEmpty_iff, path?, ite_eq_left_iff]
  simp

lemma path?_eq_some (hline : '\n' ∉ line) (h : path? line = some path) :
    IsPath path ∧ ∃ n, line = path ++ List.replicate n '\r' := by
  have hpath : path = Text.dropEndWhile (· == '\r') line := by
    rw [path?] at h
    split_ifs at h
    exact (Option.some.inj h).symm
  obtain ⟨n, hn⟩ := exists_returns line
  rw [← hpath] at hn
  have hself : path? path = some path := by rwa [hn, path?_append_returns] at h
  refine ⟨⟨?_, ?_, ?_⟩, n, hn⟩
  · exact fun hmem => hline (hn ▸ List.mem_append_left _ hmem)
  · intro hlast
    rw [hpath] at hlast
    exact Text.not_of_getLast?_dropEndWhile hlast (beq_self_eq_true '\r')
  · have hnot : ¬ ∀ c ∈ path, Text.isBlank c := by
      rw [← path?_eq_none, hself]
      exact Option.some_ne_none path
    simpa using hnot

lemma holds_filterMap {ts : List Text} (h : ∀ t ∈ ts, '\n' ∉ t) :
    Holds (ts.map Utf8.encode) (ts.filterMap path?) := by
  induction ts with
  | nil => exact .nil
  | cons t ts ih =>
    obtain ⟨ht, hts⟩ := List.forall_mem_cons.mp h
    rw [List.map_cons, List.filterMap_cons]
    cases hpath : path? t with
    | none => exact .blank (path?_eq_none.mp hpath) (ih hts)
    | some path =>
      obtain ⟨hp, n, rfl⟩ := path?_eq_some ht hpath
      exact .path n hp (ih hts)

end PathSieve.Listing.Input
