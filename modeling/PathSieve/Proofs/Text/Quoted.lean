import PathSieve.Proofs.Text.Split
import PathSieve.Text.Quoted

namespace PathSieve.Quoted

def IsPlain (s : Text) : Prop := ∀ c ∈ s, 0x20 ≤ c.toNat

instance (s : Text) : Decidable (IsPlain s) :=
  List.decidableBAll (fun c : Char => 0x20 ≤ c.toNat) s

lemma isPlain_append {s t : Text} : IsPlain (s ++ t) ↔ IsPlain s ∧ IsPlain t :=
  List.forall_mem_append

lemma isPlain_flatMap {α : Type} {f : α → Text} {s : List α} (h : ∀ a ∈ s, IsPlain (f a)) :
    IsPlain (s.flatMap f) := by
  intro c hc
  obtain ⟨a, ha, hmem⟩ := List.mem_flatMap.mp hc
  exact h a ha c hmem

lemma isPlain_hexadecimal (n : ℕ) : IsPlain (Text.hexadecimal n) := by
  have hdigit : ∀ d < 16, IsPlain [Nat.digitChar d] := by decide
  rw [Text.hexadecimal]
  induction n using Nat.strongRecOn with
  | ind n ih =>
    rw [Nat.toDigits_eq_if (by decide)]
    split_ifs with hn
    · exact hdigit n hn
    · exact isPlain_append.mpr ⟨ih (n / 16) (by omega), hdigit (n % 16) (by omega)⟩

lemma le_of_not_isHidden {c : Char} (h : ¬ isHidden c) : 0x20 ≤ c.toNat := by
  by_contra hlt
  have hunprintable : Text.isUnprintable c = true :=
    List.any_eq_true.mpr ⟨(0, 31), List.mem_cons_self, by simp; omega⟩
  have hshown : ¬ (0x20 ≤ c.toNat && c.toNat ≤ 0x7E) = true := by simp; omega
  exact h (by rw [isHidden, if_neg hshown, hunprintable, Bool.or_true])

lemma isPlain_escape (c : Char) : IsPlain (escape c) := by
  rw [escape]
  split
  · next e he =>
    have hlong := longEscape?_of_shortEscape? he
    unfold longEscape? at hlong
    split at hlong <;> first | decide | cases hlong
  · split_ifs with hidden
    · rw [codeEscape, isPlain_append, isPlain_append]
      exact ⟨⟨by decide, isPlain_hexadecimal _⟩, by decide⟩
    · exact List.forall_mem_singleton.mpr (le_of_not_isHidden hidden)

lemma isPlain_quote (s : Text) : IsPlain (quote s) := by
  rw [quote, ← List.singleton_append, isPlain_append, isPlain_append]
  exact ⟨⟨by decide, isPlain_flatMap fun c _ => isPlain_escape c⟩, by decide⟩

theorem isPlain_list (ss : List Text) : IsPlain (list ss) := by
  have hjoin : IsPlain (Text.join [',', ' '] (ss.map quote)) := by
    cases ss with
    | nil => exact fun _ hc => absurd hc List.not_mem_nil
    | cons s ss =>
      rw [List.map_cons, Text.join_cons, List.flatMap_map, isPlain_append]
      refine ⟨isPlain_quote s, isPlain_flatMap fun t _ => isPlain_append.mpr ⟨by decide, ?_⟩⟩
      exact isPlain_quote t
  rw [list, ← List.singleton_append, isPlain_append, isPlain_append]
  exact ⟨⟨by decide, hjoin⟩, by decide⟩

theorem newline_notMem_list (ss : List Text) : '\n' ∉ list ss := fun h =>
  absurd (isPlain_list ss '\n' h) (by decide)

end PathSieve.Quoted
