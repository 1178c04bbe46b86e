import Mathlib.Data.List.DropRight
import PathSieve.Text

namespace PathSieve.Text

variable {α β : Type} {p : α → Bool}

lemma splitOn_cons_sep {a : α} (ha : p a) (s : List α) :
    splitOn p (a :: s) = [] :: splitOn p s := by
  rw [splitOn, if_pos ha]

lemma splitOn_cons {a : α} (ha : ¬ p a) {s piece : List α} {pieces : List (List α)}
    (hs : splitOn p s = piece :: pieces) : splitOn p (a :: s) = (a :: piece) :: pieces := by
  rw [splitOn, if_neg ha, hs]

lemma exists_splitOn (p : α → Bool) (s : List α) :
    ∃ piece pieces, splitOn p s = piece :: pieces := by
  cases h : splitOn p s with
  | nil => exact absurd h (splitOn_ne_nil p s)
  | cons piece pieces => exact ⟨piece, pieces, rfl⟩

lemma splitOn_eq_singleton {s : List α} (h : ∀ a ∈ s, ¬ p a) : splitOn p s = [s] := by
  induction s with
  | nil => rfl
  | cons a s ih =>
    exact splitOn_cons (h a List.mem_cons_self) (ih fun b hb => h b (List.mem_cons_of_mem a hb))

lemma not_of_mem_splitOn {s piece : List α} (h : piece ∈ splitOn p s) : ∀ a ∈ piece, ¬ p a := by
  induction s generalizing piece with
  | nil =>
    rw [List.mem_singleton.mp h]
    exact fun a ha => absurd ha List.not_mem_nil
  | cons b s ih =>
    by_cases hb : p b
    · rw [splitOn_cons_sep hb, List.mem_cons] at h
      rcases h with rfl | h
      · exact fun a ha => absurd ha List.not_mem_nil
      · exact ih h
    · obtain ⟨first, pieces, hs⟩ := exists_splitOn p s
      rw [hs] at ih
      rw [splitOn_cons hb hs, List.mem_cons] at h
      rcases h with rfl | h
      · exact List.forall_mem_cons.mpr ⟨hb, ih List.mem_cons_self⟩
      · exact ih (List.mem_cons_of_mem first h)

lemma splitOn_append {a : α} (ha : p a) (s t : List α) :
    splitOn p (s ++ a :: t) = splitOn p s ++ splitOn p t := by
  induction s with
  | nil => exact splitOn_cons_sep ha t
  | cons b s ih =>
    by_cases hb : p b
    · rw [List.cons_append, splitOn_cons_sep hb, splitOn_cons_sep hb, ih, List.cons_append]
    · obtain ⟨piece, pieces, hs⟩ := exists_splitOn p s
      rw [hs, List.cons_append] at ih
      rw [List.cons_append, splitOn_cons hb ih, splitOn_cons hb hs, List.cons_append]

lemma splitOn_replicate {a : α} (ha : p a) (n : ℕ) :
    splitOn p (List.replicate n a) = [] :: List.replicate n [] := by
  induction n with
  | zero => rfl
  | succ n ih => rw [List.replicate_succ, splitOn_cons_sep ha, ih, ← List.replicate_succ]

lemma join_cons (sep : List α) (s : List α) (ss : List (List α)) :
    join sep (s :: ss) = s ++ ss.flatMap (sep ++ ·) := by
  induction ss generalizing s with
  | nil => simp [join]
  | cons t ss ih => simp [join, ih]

lemma join_append (sep : List α) {ss ts : List (List α)} (hs : ss ≠ []) (ht : ts ≠ []) :
    join sep (ss ++ ts) = join sep ss ++ sep ++ join sep ts := by
  obtain ⟨s, ss, rfl⟩ := List.exists_cons_of_ne_nil hs
  obtain ⟨t, ts, rfl⟩ := List.exists_cons_of_ne_nil ht
  simp [join_cons]

lemma mem_join {sep : List α} {ss : List (List α)} {a : α} (ha : a ∉ sep) :
    a ∈ join sep ss ↔ ∃ s ∈ ss, a ∈ s := by
  cases ss with
  | nil => simp [join]
  | cons s ss => simp [join_cons, ha]

lemma exists_getLast?_join (sep : List α) {ss : List (List α)} (hss : ss ≠ [])
    (h : ∀ s ∈ ss, s ≠ []) : ∃ s ∈ ss, (join sep ss).getLast? = s.getLast? := by
  induction ss with
  | nil => exact absurd rfl hss
  | cons s ss ih =>
    cases ss with
    | nil => exact ⟨s, List.mem_cons_self, rfl⟩
    | cons t ss =>
      have hrest := List.forall_mem_cons.mp h
      obtain ⟨u, hu, hlast⟩ := ih (List.cons_ne_nil t ss) hrest.2
      have hne : join sep (t :: ss) ≠ [] := by
        intro hnil
        rw [hnil, List.getLast?_nil, eq_comm, List.getLast?_eq_none_iff] at hlast
        exact hrest.2 u hu hlast
      have hjoin : join sep (s :: t :: ss) = s ++ sep ++ join sep (t :: ss) := rfl
      refine ⟨u, List.mem_cons_of_mem s hu, ?_⟩
      rw [hjoin, List.getLast?_append_of_ne_nil _ hne, hlast]

lemma length_le_length_join (sep : List α) {ss : List (List α)} (h : ∀ s ∈ ss, s ≠ []) :
    ss.length ≤ (join sep ss).length := by
  induction ss with
  | nil => exact Nat.zero_le _
  | cons s ss ih =>
    obtain ⟨hs, hss⟩ := List.forall_mem_cons.mp h
    have hpos := List.length_pos_iff.mpr hs
    have hrest := ih hss
    cases ss with
    | nil => exact hpos
    | cons t ss =>
      simp only [join, List.length_append, List.length_cons] at hrest ⊢
      omega

lemma splitOn_join {a : α} (ha : p a) {s : List α} {ss : List (List α)}
    (h : ∀ t ∈ s :: ss, ∀ b ∈ t, ¬ p b) : splitOn p (join [a] (s :: ss)) = s :: ss := by
  induction ss generalizing s with
  | nil => exact splitOn_eq_singleton (h s List.mem_cons_self)
  | cons t ss ih =>
    have hs := splitOn_eq_singleton (h s List.mem_cons_self)
    have ht := ih fun u hu => h u (List.mem_cons_of_mem s hu)
    have hjoin : join [a] (s :: t :: ss) = s ++ a :: join [a] (t :: ss) := by simp [join]
    rw [hjoin, splitOn_append ha, hs, ht, List.singleton_append]

lemma splitOn_append_of_not {w : List α} (h : ∀ a ∈ w, ¬ p a) {s piece : List α}
    {pieces : List (List α)} (hs : splitOn p s = piece :: pieces) :
    splitOn p (w ++ s) = (w ++ piece) :: pieces := by
  induction w with
  | nil => exact hs
  | cons a w ih =>
    exact splitOn_cons (h a List.mem_cons_self) (ih fun b hb => h b (List.mem_cons_of_mem a hb))

def words (p : α → Bool) (s : List α) : List (List α) := (splitOn p s).filter (!·.isEmpty)

lemma words_append_cons {a : α} (ha : p a) (s t : List α) :
    words p (s ++ a :: t) = words p s ++ words p t := by
  rw [words, splitOn_append ha, List.filter_append]
  rfl

lemma words_append_all {t : List α} (h : ∀ a ∈ t, p a) (s : List α) :
    words p (s ++ t) = words p s := by
  induction t generalizing s with
  | nil => rw [List.append_nil]
  | cons a t ih =>
    have ht : words p t = [] := by
      have := ih (fun b hb => h b (List.mem_cons_of_mem a hb)) []
      rwa [List.nil_append] at this
    rw [words_append_cons (h a List.mem_cons_self), ht, List.append_nil]

lemma dropEndWhile_eq (p : α → Bool) (s : List α) : dropEndWhile p s = s.rdropWhile p := rfl

lemma exists_dropEndWhile (p : α → Bool) (s : List α) :
    ∃ t, (∀ a ∈ t, p a) ∧ s = dropEndWhile p s ++ t := by
  refine ⟨s.rtakeWhile p, fun a => List.mem_rtakeWhile_imp, ?_⟩
  rw [dropEndWhile_eq, List.rdropWhile_append_rtakeWhile]

lemma words_dropEndWhile (p : α → Bool) (s : List α) : words p (dropEndWhile p s) = words p s := by
  obtain ⟨t, ht, hs⟩ := exists_dropEndWhile p s
  conv_rhs => rw [hs, words_append_all ht]

lemma dropEndWhile_eq_nil {s : List α} : dropEndWhile p s = [] ↔ ∀ a ∈ s, p a := by
  rw [dropEndWhile_eq, List.rdropWhile_eq_nil_iff]

lemma dropEndWhile_eq_self {s : List α} (h : ∀ a ∈ s.getLast?, ¬ p a) : dropEndWhile p s = s := by
  rw [dropEndWhile_eq, List.rdropWhile_eq_self_iff]
  exact fun hne => h _ (List.getLast?_eq_some_getLast hne)

lemma not_of_getLast?_dropEndWhile {s : List α} {a : α}
    (h : (dropEndWhile p s).getLast? = some a) : ¬ p a := by
  obtain ⟨hne, rfl⟩ := List.mem_getLast?_eq_getLast h
  exact List.rdropWhile_last_not p s hne

end PathSieve.Text
