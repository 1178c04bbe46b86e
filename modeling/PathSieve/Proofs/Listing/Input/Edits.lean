import Mathlib.Logic.Relation
import PathSieve.Proofs.Listing.Input.Lines

/-! Input that lists the same paths. The paths of a listing, written one a line with either kind of
line end, are listed again, and neither blank lines nor carriage returns at the ends of lines
change a listing. -/

namespace PathSieve.Listing.Input

def paths (t : Text) : List Text := (Line.split '\n' t).filterMap path?

lemma value_list_text (t : Text) :
    (Source.ofBytes (Utf8.encode t)).list.1.value = .ok (paths t) :=
  value_list_encode _ (Utf8.split_encode t)

lemma isPath_of_mem {t path : Text} (h : path ∈ paths t) : IsPath path := by
  obtain ⟨line, hline, hpath⟩ := List.mem_filterMap.mp h
  exact (path?_eq_some (Line.not_mem_of_mem_split hline) hpath).1

section Written

def lineEnd (returns : Bool) : Text := if returns then ['\r', '\n'] else ['\n']

def written (returns isEnded : Bool) (paths : List Text) : Text :=
  Text.join (lineEnd returns) paths ++ if isEnded then lineEnd returns else []

lemma paths_line {path : Text} (hpath : IsPath path) (returns : Bool) (s : Text) :
    paths (path ++ lineEnd returns ++ s) = path :: paths s := by
  have hline : ∃ n, path ++ lineEnd returns ++ s = path ++ List.replicate n '\r' ++ '\n' :: s := by
    cases returns with
    | true => exact ⟨1, by simp [lineEnd]⟩
    | false => exact ⟨0, by simp [lineEnd]⟩
  obtain ⟨n, hn⟩ := hline
  have hnewline : '\n' ∉ path ++ List.replicate n '\r' := by simp [hpath.newline_notMem]
  rw [hn, paths, Line.split_append_newline hnewline, List.filterMap_cons, path?_append_returns,
    path?_of_isPath hpath]
  rfl

lemma paths_last {path : Text} (hpath : IsPath path) : paths path = [path] := by
  obtain ⟨c, hc, -⟩ := hpath.exists_not_blank
  rw [paths, Line.split_of_not_mem (List.ne_nil_of_mem hc) hpath.newline_notMem,
    List.filterMap_cons, path?_of_isPath hpath]
  rfl

lemma paths_written (returns isEnded : Bool) {ps : List Text} (h : ∀ p ∈ ps, IsPath p) :
    paths (written returns isEnded ps) = ps := by
  induction ps with
  | nil => cases returns <;> cases isEnded <;> decide
  | cons p ps ih =>
    obtain ⟨hp, hps⟩ := List.forall_mem_cons.mp h
    cases ps with
    | nil =>
      cases isEnded with
      | true =>
        have hend := paths_line hp returns []
        rwa [List.append_nil] at hend
      | false =>
        have hsingle : written returns false [p] = p := List.append_nil p
        rw [hsingle, paths_last hp]
    | cons q ps =>
      have hwritten : written returns isEnded (p :: q :: ps) =
          p ++ lineEnd returns ++ written returns isEnded (q :: ps) := by
        simp [written, Text.join]
      rw [hwritten, paths_line hp, ih hps]

end Written

section Edits

/-- An edit of a text that adds carriage returns before a newline, or blank lines between lines. -/
inductive Edit : Text → Text → Prop
  | returns (before after : Text) (n : ℕ) :
      Edit (before ++ '\n' :: after) (before ++ List.replicate n '\r' ++ '\n' :: after)
  | blank (before blank after : Text) : (before = [] ∨ before.getLast? = some '\n') →
      (∀ c ∈ blank, Text.isBlank c) → Edit (before ++ after) (before ++ blank ++ '\n' :: after)

lemma paths_append_newline (s t : Text) :
    paths (s ++ '\n' :: t) = paths (s ++ ['\n']) ++ paths t := by
  rw [paths, Line.split_append_cons, List.filterMap_append]
  rfl

lemma paths_returns (s : Text) (n : ℕ) :
    paths (s ++ List.replicate n '\r' ++ ['\n']) = paths (s ++ ['\n']) := by
  have hline {l : Text} (hl : '\n' ∉ l) :
      paths (l ++ List.replicate n '\r' ++ ['\n']) = paths (l ++ ['\n']) := by
    have hreturns : '\n' ∉ l ++ List.replicate n '\r' := by simp [hl]
    rw [paths, paths, Line.split_append_newline hreturns, Line.split_append_newline hl,
      List.filterMap_cons, List.filterMap_cons, path?_append_returns]
  obtain ⟨ls, h⟩ : ∃ ls, Line.Cut '\n' s ls := ⟨_, Line.cut_split '\n' s⟩
  induction h with
  | nil => exact hline List.not_mem_nil
  | last _ hl => exact hline hl
  | @line l s ls _ _ ih =>
    rw [List.append_assoc, List.append_assoc, List.cons_append, ← List.append_assoc,
      paths_append_newline, ih, ← paths_append_newline, List.append_assoc, List.cons_append]

lemma paths_blank {blank : Text} (h : ∀ c ∈ blank, Text.isBlank c) : paths blank = [] := by
  refine List.filterMap_eq_nil_iff.mpr fun line hline => path?_eq_none.mpr fun c hc => ?_
  exact h c ((Line.cut_split '\n' blank).subset line hline hc)

lemma paths_lines (before : Text) {s t : Text} (hbefore : before = [] ∨ before.getLast? = some '\n')
    (h : paths s = paths t) : paths (before ++ s) = paths (before ++ t) := by
  rcases hbefore with rfl | hlast
  · exact h
  · obtain ⟨start, rfl⟩ := List.getLast?_eq_some_iff.mp hlast
    rw [List.append_assoc, List.append_assoc, List.singleton_append, List.singleton_append,
      paths_append_newline, h, ← paths_append_newline]

lemma Edit.paths_eq {d e : Text} (h : Edit d e) : paths e = paths d := by
  cases h with
  | returns before after n =>
    rw [paths_append_newline, paths_returns, ← paths_append_newline]
  | blank before blank after hbefore hblank =>
    have hlines : ∀ c ∈ blank ++ ['\n'], Text.isBlank c := by
      rw [List.forall_mem_append, List.forall_mem_singleton]
      exact ⟨hblank, by decide⟩
    rw [List.append_assoc]
    refine paths_lines before hbefore ?_
    rw [paths_append_newline, paths_blank hlines, List.nil_append]

lemma paths_of_edits {d e : Text} (h : Relation.ReflTransGen Edit d e) : paths e = paths d := by
  induction h with
  | refl => rfl
  | tail _ hedit ih => rw [hedit.paths_eq, ih]

end Edits

theorem list_of_text (d : Text) :
    ∃ ps, (Source.ofBytes (Utf8.encode d)).list.1.value = .ok ps ∧ (∀ p ∈ ps, IsPath p) ∧
      (∀ returns isEnded,
        (Source.ofBytes (Utf8.encode (written returns isEnded ps))).list.1.value = .ok ps) ∧
      ∀ e, Relation.ReflTransGen Edit d e →
        (Source.ofBytes (Utf8.encode e)).list.1.value = .ok ps := by
  have hpaths : ∀ p ∈ paths d, IsPath p := fun p => isPath_of_mem
  refine ⟨paths d, value_list_text d, hpaths, fun returns isEnded => ?_, fun e he => ?_⟩
  · rw [value_list_text, paths_written returns isEnded hpaths]
  · rw [value_list_text, paths_of_edits he]

theorem list_of_text_edited :
    Relation.ReflTransGen Edit "./a\n\n- b\r".toList "./a\r\r\n\u3000\t\n\n- b\r".toList ∧
      ∃ ps, (Source.ofBytes (Utf8.encode "./a\n\n- b\r".toList)).list.1.value = .ok ps ∧
        "- b".toList ∈ ps ∧ IsPath "- b".toList ∧
        (Source.ofBytes
          (Utf8.encode "./a\r\r\n\u3000\t\n\n- b\r".toList)).list.1.value = .ok ps := by
  have hreturns : Edit "./a\n\n- b\r".toList "./a\r\r\n\n- b\r".toList :=
    .returns "./a".toList "\n- b\r".toList 2
  have hblank : Edit "./a\r\r\n\n- b\r".toList "./a\r\r\n\u3000\t\n\n- b\r".toList :=
    .blank "./a\r\r\n".toList "\u3000\t".toList "\n- b\r".toList (by decide)
      (List.all_eq_true.mp (by decide))
  have hedits := (Relation.ReflTransGen.single hreturns).tail hblank
  obtain ⟨ps, hd, hps, -, hedited⟩ := list_of_text "./a\n\n- b\r".toList
  have hmem : "- b".toList ∈ ps := by
    rw [← Except.ok.inj ((value_list_text _).symm.trans hd)]
    decide
  exact ⟨hedits, ps, hd, hmem, hps _ hmem, hedited _ hedits⟩

end PathSieve.Listing.Input
