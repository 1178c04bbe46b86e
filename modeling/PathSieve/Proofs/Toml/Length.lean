import Mathlib.Tactic.Common
import PathSieve.Proofs.Toml.Layout

namespace PathSieve.Toml

open Layout

lemma spaces_length {t r : Text} (h : Spaces t r) : r.length ≤ t.length := by
  induction h with
  | stop => exact le_rfl
  | skip _ _ ih => exact ih.trans (Nat.le_succ _)

lemma newline_length {t r : Text} (h : Newline t r) : r.length < t.length := by
  cases h with
  | feed => exact Nat.lt_succ_self _
  | returnFeed => exact Nat.lt_succ_of_lt (Nat.lt_succ_self _)

lemma comment_length {t r : Text} (h : Comment t r) : r.length < t.length := by
  cases h
  simp only [List.length_cons, List.length_append]
  omega

lemma filler_length {t r : Text} (h : Filler t r) : r.length ≤ t.length := by
  induction h with
  | stop => exact le_rfl
  | skip _ _ ih => exact ih.trans (Nat.le_succ _)
  | newline hn _ ih => exact ih.trans (newline_length hn).le
  | comment hc hn _ ih => exact ih.trans ((newline_length hn).trans (comment_length hc)).le

lemma lineEnd_length {t r : Text} (h : LineEnd t r) : r.length ≤ t.length ∧ (t ≠ [] →
    r.length < t.length) := by
  induction h with
  | stop => exact ⟨le_rfl, fun h => absurd rfl h⟩
  | newline hn => exact ⟨(newline_length hn).le, fun _ => newline_length hn⟩
  | last hc => exact ⟨Nat.zero_le _, fun _ => (Nat.zero_le _).trans_lt (comment_length hc)⟩
  | comment hc hn =>
    have hlen := (newline_length hn).trans (comment_length hc)
    exact ⟨hlen.le, fun _ => hlen⟩
  | skip _ _ ih => exact ⟨ih.1.trans (Nat.le_succ _), fun _ => ih.1.trans_lt (Nat.lt_succ_self _)⟩

lemma body_length {s t r : Text} (h : Body s t r) : r.length < t.length := by
  induction h <;> simp only [List.length_cons] at * <;> omega

lemma quoted_length {s t r : Text} (h : Quoted s t r) : r.length < t.length := by
  cases h with
  | mk h => exact (body_length h).trans (Nat.lt_succ_self _)

lemma items_length {ss : List Text} {t r : Text} (h : Items ss t r) : r.length < t.length := by
  induction h with
  | close ht => exact (Nat.lt_succ_self _).trans_le (filler_length ht)
  | last ht hq hv =>
    exact ((Nat.lt_succ_self _).trans_le (filler_length hv)).trans
      ((quoted_length hq).trans_le (filler_length ht))
  | more ht hq hv _ ih =>
    exact (ih.trans ((Nat.lt_succ_self _).trans_le (filler_length hv))).trans
      ((quoted_length hq).trans_le (filler_length ht))

lemma pair_length {f : Field} {t r : Text} (h : Pair f t r) : r.length < t.length := by
  cases h with
  | mk ht hu hv hw =>
    have ht := spaces_length ht
    have hu := spaces_length hu
    have hv := spaces_length hv
    cases hw with
    | mk hw =>
      have hw := items_length hw
      simp only [List.length_append, List.length_cons] at *
      omega

lemma fields_length {fs : List Field} {t r : Text} (h : Fields fs t r) : r.length < t.length := by
  induction h with
  | last hp hu =>
    have hp := pair_length hp
    have hu := spaces_length hu
    rw [List.length_cons] at hu
    omega
  | more hp hu _ ih =>
    have hp := pair_length hp
    have hu := spaces_length hu
    rw [List.length_cons] at hu
    omega

lemma braces_length {fs : List Field} {t r : Text} (h : Braces fs t r) : r.length < t.length := by
  cases h with
  | empty ht =>
    have ht := spaces_length ht
    simp only [List.length_cons] at *
    omega
  | fields h => exact (fields_length h).trans (Nat.lt_succ_self _)

lemma written_length {l : Line} {t r : Text} (h : l.Written t r) : r.length ≤ t.length := by
  cases h with
  | blank => exact le_rfl
  | setting ht hu hv hw =>
    have ht := spaces_length ht
    have hu := spaces_length hu
    have hv := spaces_length hv
    have hw := quoted_length hw
    simp only [List.length_cons, List.length_append] at *
    omega
  | dotted ht hu hp =>
    have ht := spaces_length ht
    have hu := spaces_length hu
    have hp := pair_length hp
    simp only [List.length_cons, List.length_append] at *
    omega
  | inline ht hu hv hw =>
    have ht := spaces_length ht
    have hu := spaces_length hu
    have hv := spaces_length hv
    have hw := braces_length hw
    simp only [List.length_cons, List.length_append] at *
    omega
  | header ht hu hv =>
    have ht := spaces_length ht
    have hu := spaces_length hu
    have hv := spaces_length hv
    simp only [List.length_cons, List.length_append] at *
    omega
  | field hp => exact (pair_length hp).le

end PathSieve.Toml
