import PathSieve.Policy.Denylist
import PathSieve.Proofs.Text.Split

namespace PathSieve.Denylist

def Spares (list : Denylist) (path : Text) : Prop :=
  path ∉ list.exact ∧ (∀ p ∈ list.prefixes, ¬ p <+: path) ∧ ∀ s ∈ list.suffixes, ¬ s <:+ path

instance (list : Denylist) : DecidablePred list.Spares := fun path =>
  inferInstanceAs (Decidable (path ∉ list.exact ∧ (∀ p ∈ list.prefixes, ¬ p <+: path) ∧
    ∀ s ∈ list.suffixes, ¬ s <:+ path))

lemma accepts_iff_spares {list : Denylist} {path : Text} :
    list.accepts path = true ↔ ['/'] <:+ path ∧ list.Spares path := accepts_iff

lemma eq_of_prefix_component {w s : Text} (hs : '/' ∉ s) (h : w ++ ['/'] <+: s ++ ['/']) :
    w = s := by
  rcases List.prefix_concat_iff.mp h with h | h
  · exact List.append_cancel_right h
  · exact absurd (h.subset (by simp)) hs

lemma component_prefix_iff {w s : Text} (hw : '/' ∉ w) (hs : '/' ∉ s) (rest : Text) :
    w ++ ['/'] <+: s ++ '/' :: rest ↔ s = w := by
  have hown : s ++ ['/'] <+: s ++ '/' :: rest := ⟨rest, by simp⟩
  constructor
  · intro h
    rcases List.prefix_or_prefix_of_prefix h hown with h | h
    · exact (eq_of_prefix_component hs h).symm
    · exact eq_of_prefix_component hw h
  · rintro rfl
    exact hown

lemma standard_spares_iff {s : Text} {ss : List Text} (hs : '/' ∉ s) :
    standard.Spares (Text.join ['/'] (s :: ss) ++ ['/']) ↔ s ≠ ".tekton".toList := by
  have hslash : ∀ w ∈ standard.exact ++ standard.suffixes, w ≠ [] ∧ ¬ ['/'] <:+ w := by decide
  have hends : ['/'] <:+ Text.join ['/'] (s :: ss) ++ ['/'] := List.suffix_append _ _
  have hexact : Text.join ['/'] (s :: ss) ++ ['/'] ∉ standard.exact := fun h =>
    (hslash _ (List.mem_append_left _ h)).2 hends
  have hsuffix : ∀ w ∈ standard.suffixes, ¬ w <:+ Text.join ['/'] (s :: ss) ++ ['/'] := by
    intro w hw h
    obtain ⟨hne, hnot⟩ := hslash w (List.mem_append_right _ hw)
    exact hnot (List.suffix_of_suffix_length_le hends h (List.length_pos_of_ne_nil hne))
  have hpath : ∃ rest, Text.join ['/'] (s :: ss) ++ ['/'] = s ++ '/' :: rest := by
    cases ss with
    | nil => exact ⟨[], rfl⟩
    | cons t ss => exact ⟨Text.join ['/'] (t :: ss) ++ ['/'], by simp [Text.join]⟩
  obtain ⟨rest, hrest⟩ := hpath
  have hprefixes : standard.prefixes = [".tekton".toList ++ ['/']] := by rfl
  rw [Spares, and_iff_right hexact, and_iff_left hsuffix, hprefixes, List.forall_mem_singleton,
    hrest, component_prefix_iff (by decide) hs]

end PathSieve.Denylist
