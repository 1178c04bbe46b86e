import PathSieve.Proofs.Run
import PathSieve.Proofs.Text.Quoted.Read

namespace PathSieve.Record

variable (policy : Policy) (raw : Text)

lemma captures_evaluate :
    (evaluate policy raw).captures =
      if (evaluate policy raw).matched then [(evaluate policy raw).normalized] else [] := by
  rw [matched_evaluate]
  rfl

lemma unlist?_diagnostic :
    Quoted.unlist? (evaluate policy raw).diagnostic =
      some (if (evaluate policy raw).matched then [(evaluate policy raw).normalized] else []) := by
  rw [diagnostic, Quoted.unlist?_list, captures_evaluate]

lemma true_suffix_verdict :
    ", True".toList <:+ (evaluate policy raw).verdict ↔ (evaluate policy raw).matched := by
  rw [verdict_evaluate, Policy.true_suffix_verdict, matched_evaluate]

lemma false_suffix_verdict :
    ", False".toList <:+ (evaluate policy raw).verdict ↔ ¬ (evaluate policy raw).matched := by
  rw [← true_suffix_verdict, verdict_evaluate]
  constructor
  · intro hfalse htrue
    have hboth := List.suffix_of_suffix_length_le htrue hfalse (by decide)
    revert hboth
    decide
  · exact Policy.false_suffix_verdict

theorem diagnostic_reads_back :
    ('\n' ∉ (evaluate policy raw).diagnostic ∧ '\r' ∉ (evaluate policy raw).diagnostic) ∧
      Quoted.unlist? (evaluate policy raw).diagnostic = some (evaluate policy raw).captures ∧
      (evaluate policy raw).captures =
        (if (evaluate policy raw).matched then [(evaluate policy raw).normalized] else []) ∧
      (", True".toList <:+ (evaluate policy raw).verdict ↔
        Quoted.unlist? (evaluate policy raw).diagnostic = some [(evaluate policy raw).normalized]) ∧
      (", False".toList <:+ (evaluate policy raw).verdict ↔
        Quoted.unlist? (evaluate policy raw).diagnostic = some []) ∧
      ∀ policy' raw', (evaluate policy raw).matched →
        (evaluate policy raw).diagnostic = (evaluate policy' raw').diagnostic →
        (evaluate policy' raw').matched ∧
          (evaluate policy raw).normalized = (evaluate policy' raw').normalized := by
  have hplain := Quoted.isPlain_list (evaluate policy raw).captures
  have hread := unlist?_diagnostic policy raw
  refine ⟨⟨fun h => absurd (hplain _ h) (by decide), fun h => absurd (hplain _ h) (by decide)⟩,
    Quoted.unlist?_list _, captures_evaluate policy raw, ?_, ?_, ?_⟩
  · rw [true_suffix_verdict, hread]
    split_ifs with hmatched <;> simp [hmatched]
  · rw [false_suffix_verdict, hread]
    split_ifs with hmatched <;> simp [hmatched]
  · intro policy' raw' hmatched heq
    rw [heq, unlist?_diagnostic, if_pos hmatched, Option.some.injEq] at hread
    split_ifs at hread with hmatched'
    exact ⟨hmatched', (List.singleton_inj.mp hread).symm⟩

def disguised : Record := evaluate (.denylist .standard) "./\\u\x7b7\x7d\n\", \u0301\r/".toList

def unmarked : Record := evaluate (.denylist .standard) "\\u\x7b7\x7d\n\", \u0301\r/".toList

theorem diagnostic_reads_back_escaped :
    disguised.matched ∧ disguised.diagnostic = unmarked.diagnostic ∧
      ('\n' ∉ disguised.diagnostic ∧ '\r' ∉ disguised.diagnostic) ∧
      Quoted.unlist? disguised.diagnostic = some disguised.captures ∧
      unmarked.matched ∧ disguised.normalized = unmarked.normalized := by
  have hmatched : disguised.matched := by decide
  have heq : disguised.diagnostic = unmarked.diagnostic := rfl
  obtain ⟨hline, hread, -, -, -, hsame⟩ := diagnostic_reads_back (.denylist .standard)
    "./\\u\x7b7\x7d\n\", \u0301\r/".toList
  exact ⟨hmatched, heq, hline, hread, hsame _ _ hmatched heq⟩

end PathSieve.Record
