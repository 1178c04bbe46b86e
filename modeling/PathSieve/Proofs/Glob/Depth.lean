import Mathlib.Order.MinMax
import PathSieve.Glob.Expression

namespace PathSieve.Glob

variable {ts us : List Token}

lemma depth_sequenceShape_le_iff {d : ℕ} :
    (sequenceShape ts).depth ≤ d ↔ ∀ t ∈ ts, t.shape.depth ≤ d := by
  induction ts with
  | nil => simp [sequenceShape]
  | cons t ts ih => rw [sequenceShape, Shape.append, max_le_iff, ih, List.forall_mem_cons]

lemma Token.depth_shape_le {t : Token} (h : ∀ bs, t ≠ .choice bs) : t.shape.depth ≤ 4 := by
  cases t with
  | choice bs => exact absurd rfl (h bs)
  | member negated ranges =>
    rw [Token.shape]
    dsimp only
    split_ifs <;> decide
  | literal | anyByte | anyRun | dirsBefore | allBelow | dirsBetween => simp [Token.shape]

lemma depth_le_of_choice (h : ∀ bs, .choice bs ∈ us → .choice bs ∈ ts)
    (hts : depth ts ≤ depthLimit) : depth us ≤ depthLimit := by
  have hlimit : (sequenceShape ts).depth ≤ 249 := Nat.le_of_succ_le_succ hts
  refine Nat.succ_le_succ (depth_sequenceShape_le_iff.mpr fun t ht => ?_)
  by_cases hchoice : ∃ bs, t = .choice bs
  · obtain ⟨bs, rfl⟩ := hchoice
    exact depth_sequenceShape_le_iff.mp hlimit _ (h bs ht)
  · exact (Token.depth_shape_le (not_exists.mp hchoice)).trans (by decide)

lemma depth_le_of_notMem (h : ∀ bs, .choice bs ∉ ts) : depth ts ≤ depthLimit := by
  have hnil : depth [] ≤ depthLimit := by decide
  exact depth_le_of_choice (fun bs hbs => absurd hbs (h bs)) hnil

end PathSieve.Glob
