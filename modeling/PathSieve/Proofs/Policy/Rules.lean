import PathSieve.Policy
import PathSieve.Proofs.Policy.Denylist

/-! The rules of a denylist. A denylist is a set of rules: their order and number do not matter,
rules that are about no path of a directory can go, and joined lists deny what either of them
denies. -/

namespace PathSieve.Denylist

/-- The list without the rules that no path of a directory meets. An empty suffix is met by all. -/
def live (list : Denylist) : Denylist where
  exact := list.exact.filter (['/'].isSuffixOf ·)
  prefixes := list.prefixes
  suffixes := list.suffixes.filter fun s => s.isEmpty || ['/'].isSuffixOf s

structure SameRules (a b : Denylist) : Prop where
  exact : ∀ name, name ∈ a.exact ↔ name ∈ b.exact
  prefixes : ∀ p, p ∈ a.prefixes ↔ p ∈ b.prefixes
  suffixes : ∀ s, s ∈ a.suffixes ↔ s ∈ b.suffixes

def append (a b : Denylist) : Denylist :=
  ⟨a.exact ++ b.exact, a.prefixes ++ b.prefixes, a.suffixes ++ b.suffixes⟩

variable {list : Denylist} {path : Text}

lemma mem_live_exact {name : Text} :
    name ∈ list.live.exact ↔ name ∈ list.exact ∧ ['/'] <:+ name := by
  simp [live]

lemma mem_live_suffixes {s : Text} :
    s ∈ list.live.suffixes ↔ s ∈ list.suffixes ∧ (s = [] ∨ ['/'] <:+ s) := by
  simp [live]

lemma slash_suffix_of_suffix {s : Text} (hs : s ≠ []) (hpath : ['/'] <:+ path)
    (h : s <:+ path) : ['/'] <:+ s :=
  List.suffix_of_suffix_length_le hpath h (List.length_pos_of_ne_nil hs)

lemma spares_live_iff (hpath : ['/'] <:+ path) : list.live.Spares path ↔ list.Spares path := by
  have hexact : path ∈ list.live.exact ↔ path ∈ list.exact := by
    rw [mem_live_exact, and_iff_left hpath]
  have hsuffixes : (∀ s ∈ list.live.suffixes, ¬ s <:+ path) ↔
      ∀ s ∈ list.suffixes, ¬ s <:+ path := by
    constructor
    · intro h s hs hsuffix
      refine h s (mem_live_suffixes.mpr ⟨hs, ?_⟩) hsuffix
      by_cases hnil : s = []
      · exact Or.inl hnil
      · exact Or.inr (slash_suffix_of_suffix hnil hpath hsuffix)
    · exact fun h s hs => h s (mem_live_suffixes.mp hs).1
  exact and_congr (not_congr hexact) (and_congr Iff.rfl hsuffixes)

lemma SameRules.spares_iff {other : Denylist} (h : list.SameRules other) :
    list.Spares path ↔ other.Spares path := by
  simp only [Spares, h.exact, h.prefixes, h.suffixes]

lemma spares_append_iff {other : Denylist} :
    (list.append other).Spares path ↔ list.Spares path ∧ other.Spares path := by
  simp only [Spares, append, List.mem_append, or_imp, not_or, forall_and]
  tauto

lemma accepts_eq_of_spares_iff {other : Denylist}
    (h : ['/'] <:+ path → (list.Spares path ↔ other.Spares path)) :
    list.accepts path = other.accepts path := by
  rw [Bool.eq_iff_iff, accepts_iff_spares, accepts_iff_spares]
  exact and_congr_right h

lemma accepts_live (list : Denylist) (path : Text) : list.live.accepts path = list.accepts path :=
  accepts_eq_of_spares_iff spares_live_iff

lemma accepts_append_iff {other : Denylist} :
    (list.append other).accepts path = true ↔
      list.accepts path = true ∧ other.accepts path = true := by
  rw [accepts_iff_spares, accepts_iff_spares, accepts_iff_spares, spares_append_iff]
  tauto

lemma accepts_standard_iff :
    standard.accepts path = true ↔ ['/'] <:+ path ∧ ¬ ".tekton/".toList <+: path := by
  have hlive : standard.live = ⟨[], [".tekton/".toList], []⟩ := by decide
  rw [← accepts_live, hlive, accepts_iff_spares]
  simp [Spares]

/-- What comes of a path is the same under `live` lists and under lists of the same rules, and a
list that joins two others accepts what both of them accept. -/
theorem captures_rules (list : Denylist) (path : Text) :
    (Policy.denylist list.live).captures path = (Policy.denylist list).captures path ∧
      (∀ other, list.SameRules other →
        (Policy.denylist other).captures path = (Policy.denylist list).captures path) ∧
      (∀ other, (list.append other).accepts path = true ↔
        list.accepts path = true ∧ other.accepts path = true) ∧
      ((override none none none).accepts path = true ↔
        ['/'] <:+ path ∧ ¬ ".tekton/".toList <+: path) := by
  have hcaptures : ∀ other : Denylist, other.accepts path = list.accepts path →
      (Policy.denylist other).captures path = (Policy.denylist list).captures path := by
    intro other h
    exact congrArg (fun accepted : Bool => if accepted then [path] else []) h
  refine ⟨hcaptures _ (accepts_live list path), fun other h => hcaptures _ ?_,
    fun other => accepts_append_iff, accepts_standard_iff⟩
  exact accepts_eq_of_spares_iff fun _ => h.spares_iff.symm

theorem captures_rules_reordered :
    SameRules ⟨["a/".toList, "b/".toList], [".c/".toList], []⟩
        ⟨["b/".toList, "a/".toList, "b/".toList], [".c/".toList, ".c/".toList], []⟩ ∧
      (Policy.denylist ⟨["b/".toList, "a/".toList, "b/".toList], [".c/".toList, ".c/".toList],
        []⟩).captures "c/".toList = ["c/".toList] := by
  have hexact : ∀ name, name ∈ ["a/".toList, "b/".toList] ↔
      name ∈ ["b/".toList, "a/".toList, "b/".toList] := by
    simp [or_comm]
  have hprefixes : ∀ p, p ∈ [".c/".toList] ↔ p ∈ [".c/".toList, ".c/".toList] := by simp
  have hsame : SameRules ⟨["a/".toList, "b/".toList], [".c/".toList], []⟩
      ⟨["b/".toList, "a/".toList, "b/".toList], [".c/".toList, ".c/".toList], []⟩ :=
    ⟨hexact, hprefixes, fun _ => Iff.rfl⟩
  exact ⟨hsame, ((captures_rules _ "c/".toList).2.1 _ hsame).trans (by decide)⟩

end PathSieve.Denylist
