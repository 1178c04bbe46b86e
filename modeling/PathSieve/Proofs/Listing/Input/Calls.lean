import Mathlib.Data.List.DropRight
import PathSieve.Proofs.Listing.Input.Lines

/-! Repeated calls on one source. Each line that is not UTF-8 fails one call; the next one after
these lists the paths behind the last such line, and then there is nothing left to list. -/

namespace PathSieve.Listing.Input

def Source.call : ℕ → Source → Except Failure (List Text)
  | 0, source => source.list.1.value
  | n + 1, source => source.list.2.call n

def listed : Except Failure (List Text) → List Text
  | .ok paths => paths
  | .error _ => []

def legible (lines : List Bytes) : List Bytes := lines.rtakeWhile Utf8.isValid

def faults (lines : List Bytes) : ℕ := lines.countP (!Utf8.isValid ·)

section Steps

variable {lines : List Bytes} {line : Bytes}

lemma exists_texts (h : ∀ line ∈ lines, Utf8.isValid line) :
    ∃ ts : List Text, lines = ts.map Utf8.encode := by
  induction lines with
  | nil => exact ⟨[], rfl⟩
  | cons line lines ih =>
    obtain ⟨hline, hlines⟩ := List.forall_mem_cons.mp h
    obtain ⟨t, rfl⟩ := Utf8.isValid_iff.mp hline
    obtain ⟨ts, rfl⟩ := ih hlines
    exact ⟨t :: ts, rfl⟩

lemma list_of_valid (ts : List Text) :
    (Source.mk (ts.map Utf8.encode)).list.1.value = .ok (ts.filterMap path?) ∧
      (Source.mk (ts.map Utf8.encode)).list.2 = ⟨[]⟩ := by
  simp [Source.list, Source.read, readable_encode]

lemma readable_of_invalid (ts : List Text) (hline : ¬ Utf8.isValid line) (after : List Bytes) :
    (readable (ts.map Utf8.encode ++ line :: after)).2 = some after := by
  induction ts with
  | nil =>
    have hnone : Utf8.decode? line = none := by
      rw [Option.eq_none_iff_forall_ne_some]
      exact fun t ht => hline (Utf8.isValid_iff.mpr ⟨t, Utf8.encode_of_decode? ht⟩)
    rw [List.map_nil, List.nil_append, readable, hnone]
  | cons t ts ih =>
    rw [List.map_cons, List.cons_append, readable, Utf8.decode?_encode]
    exact ih

lemma list_of_invalid (ts : List Text) (hline : ¬ Utf8.isValid line) (after : List Bytes) :
    (Source.mk (ts.map Utf8.encode ++ line :: after)).list.1.value = .error (.system .notUtf8) ∧
      (Source.mk (ts.map Utf8.encode ++ line :: after)).list.2 = ⟨after⟩ := by
  have hread := readable_of_invalid ts hline after
  rw [Source.list, Source.read]
  cases hlines : readable (ts.map Utf8.encode ++ line :: after) with
  | mk ts rest =>
    rw [hlines] at hread
    dsimp only at hread
    subst hread
    exact ⟨rfl, rfl⟩

lemma legible_append (before : List Bytes) (hline : ¬ Utf8.isValid line) (after : List Bytes) :
    legible (before ++ line :: after) = legible after := by
  induction after using List.reverseRecOn with
  | nil => exact List.rtakeWhile_concat_neg _ _ _ hline
  | append_singleton after last ih =>
    rw [legible, legible, ← List.cons_append, ← List.append_assoc, List.rtakeWhile_concat,
      List.rtakeWhile_concat]
    rw [legible, legible] at ih
    rw [ih]

lemma faults_encode (ts : List Text) : faults (ts.map Utf8.encode) = 0 := by
  rw [faults, List.countP_eq_zero]
  intro line hline
  obtain ⟨t, -, rfl⟩ := List.mem_map.mp hline
  simp [Utf8.isValid_iff.mpr ⟨t, rfl⟩]

lemma faults_append (ts : List Text) (hline : ¬ Utf8.isValid line) (after : List Bytes) :
    faults (ts.map Utf8.encode ++ line :: after) = faults after + 1 := by
  have hts := faults_encode ts
  rw [faults] at hts
  rw [faults, faults, List.countP_append, hts, List.countP_cons_of_pos (by simpa using hline),
    Nat.zero_add]

lemma exists_texts_or_invalid (lines : List Bytes) :
    (∃ ts : List Text, lines = ts.map Utf8.encode) ∨
      ∃ (ts : List Text) (line : Bytes) (after : List Bytes),
        ¬ Utf8.isValid line ∧ lines = ts.map Utf8.encode ++ line :: after := by
  cases hfind : lines.find? (!Utf8.isValid ·) with
  | none =>
    refine Or.inl (exists_texts fun line hline => ?_)
    simpa using List.find?_eq_none.mp hfind line hline
  | some line =>
    obtain ⟨hline, before, after, rfl, hbefore⟩ := List.find?_eq_some_iff_append.mp hfind
    obtain ⟨ts, rfl⟩ := exists_texts fun l hl => by simpa using hbefore l hl
    exact Or.inr ⟨ts, line, after, by simpa using hline, rfl⟩

end Steps

lemma call_empty (n : ℕ) : (Source.mk []).call n = .ok [] := by
  obtain ⟨hvalue, hrest⟩ : (Source.mk []).list.1.value = .ok [] ∧ (Source.mk []).list.2 = ⟨[]⟩ :=
    list_of_valid []
  induction n with
  | zero => exact hvalue
  | succ n ih => rwa [Source.call, hrest]

lemma call_of_valid (ts : List Text) (n : ℕ) :
    (Source.mk (ts.map Utf8.encode)).call n = .ok (if n = 0 then ts.filterMap path? else []) := by
  obtain ⟨hvalue, hrest⟩ := list_of_valid ts
  cases n with
  | zero => exact hvalue
  | succ n => rw [Source.call, hrest, call_empty, if_neg n.succ_ne_zero]

lemma exists_call (lines : List Bytes) :
    ∃ ts : List Text, legible lines = ts.map Utf8.encode ∧
      ∀ n, (Source.mk lines).call n = if n < faults lines then .error (.system .notUtf8)
        else .ok (if n = faults lines then ts.filterMap path? else []) := by
  induction hn : lines.length using Nat.strongRecOn generalizing lines with
  | ind k ih =>
    rcases exists_texts_or_invalid lines with ⟨ts, rfl⟩ | ⟨ts, line, after, hline, rfl⟩
    · refine ⟨ts, List.rtakeWhile_eq_self_iff.mpr ?_, fun n => ?_⟩
      · exact List.forall_mem_map.mpr fun t _ => Utf8.isValid_iff.mpr ⟨t, rfl⟩
      · rw [call_of_valid, faults_encode, if_neg n.not_lt_zero]
    · rw [List.length_append, List.length_cons] at hn
      obtain ⟨us, hus, hcall⟩ := ih after.length (by omega) after rfl
      obtain ⟨hvalue, hrest⟩ := list_of_invalid ts hline after
      refine ⟨us, (legible_append _ hline after).trans hus, fun n => ?_⟩
      rw [faults_append ts hline]
      cases n with
      | zero => rw [Source.call, hvalue, if_pos (Nat.succ_pos _)]
      | succ n =>
        simp only [Source.call, hrest, hcall, Nat.add_lt_add_iff_right, Nat.add_right_cancel_iff]

lemma flatMap_listed {source : Source} {paths : List Text} {m : ℕ}
    (h : ∀ n, listed (source.call n) = if n = m then paths else []) (k : ℕ) :
    (List.range k).flatMap (fun n => listed (source.call n)) = if m < k then paths else [] := by
  induction k with
  | zero => rfl
  | succ k ih =>
    rw [List.range_succ, List.flatMap_append, ih, List.flatMap_singleton, h]
    split_ifs <;> first | omega | simp

lemma faults_split (data : Bytes) :
    faults (Line.split newline data) = 0 ↔ ∃ t, Utf8.encode t = data := by
  rw [← Utf8.isValid_iff, Utf8.isValid_iff_decode?,
    Utf8.exists_decode?_split newline (by decide), faults, List.countP_eq_zero]
  simp [Utf8.isValid_iff_decode?]

lemma newline_notMem_of_legible {data : Bytes} {ts : List Text}
    (h : legible (Line.split newline data) = ts.map Utf8.encode) : ∀ t ∈ ts, '\n' ∉ t := by
  intro t ht hmem
  have hline : Utf8.encode t ∈ Line.split newline data :=
    (List.rtakeWhile_suffix _ _).subset (h ▸ List.mem_map_of_mem ht)
  exact Line.not_mem_of_mem_split hline ((Utf8.mem_encode_ascii (v := 0x0A) (by decide)).mpr hmem)

theorem call_of_lines (data : Bytes) :
    ∃ lines paths, Line.Cut newline data lines ∧ Holds (legible lines) paths ∧
      (∀ n, (Source.ofBytes data).call n = if n < faults lines then .error (.system .notUtf8)
        else .ok (if n = faults lines then paths else [])) ∧
      ((∃ paths, (Source.ofBytes data).call 0 = .ok paths) ↔ ∃ t, Utf8.encode t = data) ∧
      ∀ k, (List.range k).flatMap (fun n => listed ((Source.ofBytes data).call n)) =
        if faults lines < k then paths else [] := by
  obtain ⟨ts, hlegible, hcall⟩ := exists_call (Line.split newline data)
  refine ⟨_, ts.filterMap path?, Line.cut_split newline data, ?_, hcall, ?_, ?_⟩
  · rw [hlegible]
    exact holds_filterMap (newline_notMem_of_legible hlegible)
  · rw [← faults_split, Source.ofBytes, hcall]
    rcases Nat.eq_zero_or_pos (faults (Line.split newline data)) with hzero | hpos
    · simp [hzero]
    · simp [hpos, hpos.ne']
  · refine flatMap_listed fun n => ?_
    rw [Source.ofBytes, hcall]
    split_ifs <;> first | rfl | omega

end PathSieve.Listing.Input
