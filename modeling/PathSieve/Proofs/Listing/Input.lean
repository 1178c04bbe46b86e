import PathSieve.Listing.Input
import PathSieve.Proofs.Except
import PathSieve.Proofs.Text.Split
import PathSieve.Proofs.Text.Utf8.Lines

namespace PathSieve.Listing.Input

variable {data : Bytes} {raws : List Text}

lemma readable_iff {lines : List Bytes} {ts : List Text} :
    readable lines = (ts, none) ↔
      List.Forall₂ (fun line t => Utf8.decode? line = some t) lines ts := by
  induction lines generalizing ts with
  | nil =>
    rw [readable, List.forall₂_nil_left_iff, Prod.mk.injEq, eq_comm]
    exact and_iff_left rfl
  | cons line lines ih =>
    rw [readable, List.forall₂_cons_left_iff]
    cases hline : Utf8.decode? line with
    | none => simp
    | some t =>
      constructor
      · intro h
        obtain ⟨rfl, hnone⟩ := Prod.mk.inj h
        exact ⟨t, _, rfl, ih.mp (Prod.ext rfl hnone), rfl⟩
      · rintro ⟨t', ts', ht, hts, rfl⟩
        cases ht
        rw [ih.mpr hts]

lemma readable_encode (ts : List Text) : readable (ts.map Utf8.encode) = (ts, none) := by
  rw [readable_iff, List.forall₂_map_left_iff, List.forall₂_same]
  exact fun t _ => Utf8.decode?_encode t

lemma value_list_ok :
    (Source.ofBytes data).list.1.value = .ok raws ↔
      ∃ ts, List.Forall₂ (fun line t => Utf8.decode? line = some t) (Line.split newline data) ts ∧
        ts.filterMap path? = raws := by
  simp only [← readable_iff]
  rw [Source.list, Source.read, Source.ofBytes]
  cases readable (Line.split newline data) with
  | mk ts rest => cases rest <;> simp

lemma value_list_encode (ts : List Text) (h : Line.split newline data = ts.map Utf8.encode) :
    (Source.ofBytes data).list.1.value = .ok (ts.filterMap path?) := by
  refine value_list_ok.mpr ⟨ts, readable_iff.mp ?_, rfl⟩
  rw [h, readable_encode]

lemma value_list_unsplit {ls : List Text} (h : ∀ l ∈ ls, '\n' ∉ l) :
    (Source.ofBytes (Utf8.encode (Line.unsplit '\n' ls))).list.1.value = .ok (ls.filterMap path?) :=
  value_list_encode ls (Utf8.split_encode_unsplit h)

lemma trim_eq_nil {s : Text} : Text.trim s = [] ↔ ∀ c ∈ s, Text.isBlank c := by
  rw [Text.trim, Text.dropEndWhile_eq_nil]
  constructor
  · intro h c hc
    rw [← List.takeWhile_append_dropWhile (p := Text.isBlank) (l := s), List.mem_append] at hc
    rcases hc with hc | hc
    · exact List.mem_takeWhile_imp hc
    · exact h c hc
  · exact fun h c hc => h c ((List.dropWhile_sublist _).subset hc)

lemma path?_eq_self {line : Text} (hend : line.getLast? ≠ some '\r')
    (hblank : ∃ c ∈ line, Text.isBlank c = false) : path? line = some line := by
  have hpath : Text.dropEndWhile (· == '\r') line = line := by
    refine Text.dropEndWhile_eq_self fun c hc hreturn => hend ?_
    rw [Option.mem_def.mp hc, beq_iff_eq.mp hreturn]
  have htrim : Text.trim line ≠ [] := by
    obtain ⟨c, hc, hnot⟩ := hblank
    exact fun hnil => Bool.eq_false_iff.mp hnot (trim_eq_nil.mp hnil c hc)
  rw [path?, hpath, if_neg fun hempty => htrim (List.isEmpty_iff.mp hempty)]

lemma newline_notMem (h : (Source.ofBytes data).list.1.value = .ok raws) {raw : Text}
    (hraw : raw ∈ raws) : '\n' ∉ raw := by
  obtain ⟨ts, hts, rfl⟩ := value_list_ok.mp h
  obtain ⟨t, ht, hpath⟩ := List.mem_filterMap.mp hraw
  obtain ⟨line, hline, hdecode⟩ := Except.exists_left hts ht
  have hsub : raw ⊆ t := by
    rw [path?] at hpath
    split_ifs at hpath
    cases hpath
    obtain ⟨ends, -, hends⟩ := Text.exists_dropEndWhile (· == '\r') t
    exact fun c hc => hends ▸ List.mem_append_left ends hc
  intro hmem
  have hnewline := (Utf8.mem_encode_ascii (v := 0x0A) (by decide)).mpr (hsub hmem)
  rw [Utf8.encode_of_decode? hdecode] at hnewline
  exact Line.not_mem_of_mem_split hline hnewline

end PathSieve.Listing.Input
