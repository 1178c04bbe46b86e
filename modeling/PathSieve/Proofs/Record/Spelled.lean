import PathSieve.Proofs.Path.Listed
import PathSieve.Record

namespace PathSieve.Record

open Listed (Spells strip unescaped)

lemma evaluate_of_spells {raw path : Text} (h : Spells raw path) (policy : Policy) :
    evaluate policy raw = ⟨raw, path, policy.captures path⟩ := by
  rw [evaluate, Listed.strip_eq_iff.mpr h]

lemma matched_of_spells {raw path : Text} (h : Spells raw path) (policy : Policy) :
    (evaluate policy raw).matched = policy.accepts path := by
  rw [matched_evaluate, Listed.strip_eq_iff.mpr h]

theorem rendered_and_spelled :
    (∀ (rel : Text) (isDirectory : Bool), ∃ r n,
      unescaped rel = r ++ List.replicate n '/' ∧ r.getLast? ≠ some '/' ∧
        strip (Listed.render rel isDirectory) =
          (if r = [] then [] else r ++ if isDirectory then ['/'] else []) ∧
        Listed.render (strip (Listed.render rel isDirectory)) isDirectory =
          Listed.render rel isDirectory) ∧
    ∀ path : Text, (∀ raw, strip raw = path ↔ Spells raw path) ∧
      ∀ raw, Spells raw path → ∀ policy,
        (evaluate policy raw).normalized = path ∧
          (evaluate policy raw).matched = policy.accepts path ∧
          (evaluate policy raw).diagnostic = Quoted.list (policy.captures path) := by
  constructor
  · intro rel isDirectory
    obtain ⟨n, hrel⟩ := Listed.exists_unescaped rel
    refine ⟨Listed.clean rel, n, hrel, Listed.getLast?_clean rel, ?_,
      Listed.render_strip_render rel isDirectory⟩
    rw [Listed.strip_render]
    simp only [List.isEmpty_iff]
  · refine fun path => ⟨fun raw => Listed.strip_eq_iff, fun raw h policy => ?_⟩
    have hrecord := evaluate_of_spells h policy
    refine ⟨?_, matched_of_spells h policy, ?_⟩
    · rw [hrecord]
    · rw [hrecord, diagnostic]

theorem rendered_and_spelled_doubled :
    (∃ r n, unescaped "a\\/\\b/\\".toList = r ++ List.replicate n '/' ∧ r.getLast? ≠ some '/' ∧
      strip (Listed.render "a\\/\\b/\\".toList true) = (if r = [] then [] else r ++ ['/']) ∧
      Listed.render (strip (Listed.render "a\\/\\b/\\".toList true)) true =
        Listed.render "a\\/\\b/\\".toList true) ∧
    (Spells "././docs/".toList "./docs/".toList ∧ ¬ Spells "./docs/".toList "./docs/".toList) ∧
      (evaluate (.denylist .standard) "././docs/".toList).normalized = "./docs/".toList ∧
      (evaluate (.denylist .standard) "././docs/".toList).matched = true ∧
      (evaluate (.denylist .standard) "././docs/".toList).diagnostic = "[\"./docs/\"]".toList := by
  obtain ⟨hrendered, hspelled⟩ := rendered_and_spelled
  obtain ⟨hlines, hrecords⟩ := hspelled "./docs/".toList
  have hmarked : Spells "././docs/".toList "./docs/".toList := .marked _
  have hbare : ¬ Spells "./docs/".toList "./docs/".toList := by
    rw [← hlines]
    decide
  exact ⟨hrendered _ true, ⟨hmarked, hbare⟩, hrecords _ hmarked (.denylist .standard)⟩

end PathSieve.Record
