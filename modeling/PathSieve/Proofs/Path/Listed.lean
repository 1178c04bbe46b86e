import PathSieve.Path.Listed
import PathSieve.Proofs.Path
import PathSieve.Proofs.Text.Utf8.Decode

namespace PathSieve.Listed

def parts (line : Text) : List Text := Text.words (· == '/') (strip line)

def unescaped (rel : Text) : Text := rel.map fun c => if c = '\\' then '/' else c

inductive Spells : Text → Text → Prop
  | marked (path : Text) : Spells (mark ++ path) path
  | bare {path : Text} : path ≠ ['.'] → ¬ mark <+: path → Spells path path
  | root : Spells ['.'] []

lemma strip_eq_iff {raw path : Text} : strip raw = path ↔ Spells raw path := by
  constructor
  · rintro rfl
    unfold strip
    split
    · exact .root
    · exact .marked _
    · rename_i hdot hmark
      refine .bare hdot ?_
      rintro ⟨path, rfl⟩
      exact hmark path rfl
  · intro h
    cases h with
    | marked | root => rfl
    | bare hdot hmark =>
      unfold strip
      split
      · exact absurd rfl hdot
      · exact absurd (List.prefix_append mark _) hmark
      · rfl

lemma strip_suffix (raw : Text) : strip raw <:+ raw := by
  unfold strip
  split
  · exact List.nil_suffix
  · exact ⟨mark, rfl⟩
  · exact List.suffix_rfl

lemma parts_render (rel : Text) (isDirectory : Bool) :
    parts (render rel isDirectory) = Text.words (· == '/') (unescaped rel) := by
  have hclean : Text.words (· == '/') (clean rel) = Text.words (· == '/') (unescaped rel) :=
    Text.words_dropEndWhile _ _
  have hnil : Text.words (· == '/') ([] : Text) = [] := rfl
  rw [parts, strip_render, ← hclean]
  split_ifs with he hd
  · rw [List.isEmpty_iff.mp he, hnil]
  · exact Text.words_append_all (by simp) _
  · rw [List.append_nil]

section Clean

variable {rel r : Text}

lemma unescaped_eq_self {s : Text} (h : '\\' ∉ s) : unescaped s = s := by
  refine (List.map_congr_left fun c hc => if_neg ?_).trans (List.map_id' s)
  rintro rfl
  exact h hc

lemma backslash_notMem_unescaped (rel : Text) : '\\' ∉ unescaped rel := by
  intro h
  obtain ⟨c, -, hc⟩ := List.mem_map.mp h
  split_ifs at hc with hbackslash
  · exact absurd hc (by decide)
  · exact hbackslash hc

lemma clean_eq_iff :
    clean rel = r ↔
      r.getLast? ≠ some '/' ∧ ∃ n, unescaped rel = r ++ List.replicate n '/' := by
  have hclean : clean rel = Text.dropEndWhile (· == '/') (unescaped rel) := rfl
  constructor
  · rintro rfl
    obtain ⟨ends, hends, hrel⟩ := Text.exists_dropEndWhile (· == '/') (unescaped rel)
    have hslashes : ends = List.replicate ends.length '/' :=
      List.eq_replicate_of_mem fun c hc => beq_iff_eq.mp (hends c hc)
    refine ⟨fun hlast => ?_, ends.length, ?_⟩
    · exact Text.not_of_getLast?_dropEndWhile hlast (beq_self_eq_true '/')
    · rw [← hslashes]
      exact hrel
  · rintro ⟨hlast, n, hrel⟩
    have hends : ∀ c ∈ List.replicate n '/', (c == '/') = true := fun c hc =>
      beq_iff_eq.mpr (List.eq_of_mem_replicate hc)
    rw [hclean, hrel, Text.dropEndWhile_append_of_all hends]
    refine Text.dropEndWhile_eq_self fun c hc hslash => hlast ?_
    rw [Option.mem_def.mp hc, beq_iff_eq.mp hslash]

lemma getLast?_clean (rel : Text) : (clean rel).getLast? ≠ some '/' := (clean_eq_iff.mp rfl).1

lemma exists_unescaped (rel : Text) : ∃ n, unescaped rel = clean rel ++ List.replicate n '/' :=
  (clean_eq_iff.mp rfl).2

lemma backslash_notMem_clean (rel : Text) : '\\' ∉ clean rel := by
  obtain ⟨n, hrel⟩ := exists_unescaped rel
  exact fun h => backslash_notMem_unescaped rel (hrel ▸ List.mem_append_left _ h)

lemma clean_strip_render (rel : Text) (isDirectory : Bool) :
    clean (strip (render rel isDirectory)) = clean rel := by
  rw [strip_render]
  split_ifs with he hd
  · rw [List.isEmpty_iff.mp he]
    rfl
  · refine clean_eq_iff.mpr ⟨getLast?_clean rel, 1, unescaped_eq_self ?_⟩
    simpa using backslash_notMem_clean rel
  · refine clean_eq_iff.mpr ⟨getLast?_clean rel, 0, unescaped_eq_self ?_⟩
    simpa using backslash_notMem_clean rel

lemma render_strip_render (rel : Text) (isDirectory : Bool) :
    render (strip (render rel isDirectory)) isDirectory = render rel isDirectory := by
  rw [render, clean_strip_render, ← render]

end Clean

lemma clean_eq_nil {rel : Text} : clean rel = [] ↔ ∀ c ∈ rel, c = '/' ∨ c = '\\' := by
  have h : clean rel = Text.dropEndWhile (· == '/') (unescaped rel) := rfl
  rw [h, Text.dropEndWhile_eq_nil, unescaped, List.forall_mem_map]
  refine forall₂_congr fun c _ => ?_
  by_cases hc : c = '\\' <;> simp [hc]

lemma getLast?_render (rel : Text) (isDirectory : Bool) :
    (render rel isDirectory).getLast? = some '/' ↔
      isDirectory ∨ ∀ c ∈ rel, c = '/' ∨ c = '\\' := by
  rw [← clean_eq_nil, render]
  split_ifs with he hd
  · simp [mark, List.isEmpty_iff.mp he]
  · simp [hd]
  · have hne : clean rel ≠ [] := fun h => he (List.isEmpty_iff.mpr h)
    rw [List.append_nil, List.getLast?_append_of_ne_nil _ hne]
    exact iff_of_false (getLast?_clean rel) (not_or.mpr ⟨hd, hne⟩)

lemma mem_clean {c : Char} (hslash : c ≠ '/') (hbackslash : c ≠ '\\') {rel : Text} :
    c ∈ clean rel ↔ c ∈ rel := by
  obtain ⟨n, hrel⟩ := exists_unescaped rel
  have hnot : c ∉ List.replicate n '/' := fun hc => hslash (List.eq_of_mem_replicate hc)
  rw [← or_iff_left (a := c ∈ clean rel) hnot, ← List.mem_append, ← hrel, unescaped, List.mem_map]
  constructor
  · rintro ⟨d, hd, rfl⟩
    split_ifs at hslash ⊢ with hd'
    · exact absurd rfl hslash
    · exact hd
  · exact fun hc => ⟨c, hc, if_neg hbackslash⟩

lemma mem_strip_render {c : Char} (hslash : c ≠ '/') (hbackslash : c ≠ '\\') {rel : Text}
    (isDirectory : Bool) : c ∈ strip (render rel isDirectory) ↔ c ∈ rel := by
  have hclean : c ∈ clean rel ↔ c ∈ rel := mem_clean hslash hbackslash
  rw [strip_render, ← hclean]
  split_ifs with he hd
  · rw [List.isEmpty_iff.mp he]
  · simp [hslash]
  · simp

lemma splitOn_encode (t : Text) :
    (Text.splitOn (· == '/') t).map Utf8.encode =
      Text.splitOn (· == Path.slash) (Utf8.encode t) := by
  induction t with
  | nil => rfl
  | cons c t ih =>
    have hencode : Utf8.encode (c :: t) = String.utf8EncodeChar c ++ Utf8.encode t := rfl
    obtain ⟨piece, pieces, hs⟩ := Text.exists_splitOn (· == '/') t
    rw [hs, List.map_cons] at ih
    by_cases hc : c = '/'
    · subst hc
      have hslash : String.utf8EncodeChar '/' = [Path.slash] := rfl
      rw [hencode, hslash, Text.splitOn_cons_sep (by decide), List.singleton_append,
        Text.splitOn_cons_sep (by decide), List.map_cons, hs, ← ih]
      rfl
    · have hnot : ∀ b ∈ String.utf8EncodeChar c, ¬ (b == Path.slash) = true := by
        intro b hb he
        rw [beq_iff_eq.mp he] at hb
        exact hc (Utf8.eq_of_mem_encodeChar (by decide) hb)
      rw [hencode, Text.splitOn_append_of_not hnot ih.symm,
        Text.splitOn_cons (by simpa using hc) hs, List.map_cons]
      rfl

lemma words_encode (t : Text) :
    (Text.words (· == '/') t).map Utf8.encode = Text.words (· == Path.slash) (Utf8.encode t) := by
  rw [Text.words, Text.words, ← splitOn_encode, List.filter_map]
  refine congrArg _ (List.filter_congr fun s _ => ?_)
  rw [Function.comp_apply, Utf8.isEmpty_encode]

lemma words_join {names : List Bytes} (h : ∀ name ∈ names, Path.IsName name) :
    Text.words (· == Path.slash) (Text.join [Path.slash] names) = names := by
  cases names with
  | nil => rfl
  | cons name names =>
    rw [Text.words, Text.splitOn_join (by decide)]
    · exact List.filter_eq_self.mpr fun n hn => by simp [(h n hn).1]
    · intro n hn b hb he
      rw [beq_iff_eq.mp he] at hb
      exact (h n hn).2.1 hb

end PathSieve.Listed
