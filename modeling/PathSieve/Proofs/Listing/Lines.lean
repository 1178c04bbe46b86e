import PathSieve.Proofs.Listing.Walk
import PathSieve.Proofs.Path.Listed

namespace PathSieve.Listing.Walk

open PathSieve.Tree (Entry)

def IsPlain (e : Entry) : Prop := ∀ name ∈ e.names, 0x5C ∉ name

lemma entryLine?_eq_some {e : Entry} {line : Text} :
    entryLine? e = some line ↔
      ∃ rel, Utf8.decode? (entryPath e) = some rel ∧ Listed.render rel e.isDirectory = line :=
  Option.map_eq_some_iff

lemma entryLine?_of_encode (e : Entry) (rel : Text) (h : entryPath e = Utf8.encode rel) :
    entryLine? e = some (Listed.render rel e.isDirectory) := by
  rw [entryLine?, h, Utf8.decode?_encode]
  rfl

lemma entryLine?_root : entryLine? ⟨[], true⟩ = some Listed.mark :=
  entryLine?_of_encode ⟨[], true⟩ [] rfl

lemma mem_entryPath {e : Entry} {b : UInt8} (hb : b ≠ Path.slash) :
    b ∈ entryPath e ↔ ∃ name ∈ e.names, b ∈ name := by
  rw [entryPath]
  cases e.names with
  | nil => simp [Text.join]
  | cons name names => simp [Text.join_cons, hb]

lemma unescaped_of_isPlain {e : Entry} (he : IsPlain e) {rel : Text}
    (h : Utf8.encode rel = entryPath e) : Listed.unescaped rel = rel := by
  refine Listed.unescaped_eq_self fun hbackslash => ?_
  have hmem := (Utf8.mem_encode_ascii (v := 0x5C) (by decide)).mpr hbackslash
  obtain ⟨name, hname, hb⟩ := (mem_entryPath (by decide)).mp (h ▸ hmem)
  exact he name hname hb

lemma forall_mem_path {e : Entry} (hnames : ∀ name ∈ e.names, Path.IsName name) {rel : Text}
    (h : Utf8.encode rel = entryPath e) :
    (∀ c ∈ rel, c = '/' ∨ c = '\\') ↔ ∀ name ∈ e.names, ∀ b ∈ name, b = 0x5C := by
  constructor
  · intro hrel name hname b hb
    have hslash : b ≠ Path.slash := fun he => (hnames name hname).2.1 (he ▸ hb)
    have hmem := (mem_entryPath hslash).mpr ⟨name, hname, hb⟩
    rw [← h, Utf8.encode] at hmem
    obtain ⟨c, hc, hbc⟩ := List.mem_flatMap.mp hmem
    rcases hrel c hc with rfl | rfl
    · exact absurd (List.mem_singleton.mp hbc) hslash
    · exact List.mem_singleton.mp hbc
  · intro hnames c hc
    by_contra hne
    obtain ⟨hslash, hbackslash⟩ := not_or.mp hne
    obtain ⟨b, hb⟩ := Utf8.exists_mem_encodeChar c
    have hb' : b ≠ Path.slash := by
      rintro rfl
      exact hslash (Utf8.eq_of_mem_encodeChar (by decide) hb)
    have hmem : b ∈ entryPath e := h ▸ List.mem_flatMap.mpr ⟨c, hc, hb⟩
    obtain ⟨name, hname, hbname⟩ := (mem_entryPath hb').mp hmem
    obtain rfl := hnames name hname b hbname
    exact hbackslash (Utf8.eq_of_mem_encodeChar (by decide) hb)

lemma parts_entryLine? {e : Entry} (hnames : ∀ name ∈ e.names, Path.IsName name) (he : IsPlain e)
    {line : Text} (h : entryLine? e = some line) :
    (Listed.parts line).map Utf8.encode = e.names := by
  obtain ⟨rel, hrel, rfl⟩ := entryLine?_eq_some.mp h
  have hencode := Utf8.encode_of_decode? hrel
  rw [Listed.parts_render, unescaped_of_isPlain he hencode, Listed.words_encode, hencode]
  exact Listed.words_join hnames

/-- Each entry is listed once, and its line tells what it is: a slash at the end stands for a
directory, and where no name has a backslash in it the line tells the entry and its depth. Names
that are made of backslashes alone are left aside. -/
def LinesIdentify (t : Tree) (depth : ℕ) (lines : List Text) : Prop :=
  ∃ es : List Entry, (es.map (·.names)).Nodup ∧
    (∀ e ∈ es, e.names.length ≤ depth ∧ ∃ u, t.At e.names u ∧ e.isDirectory = u.isDirectory) ∧
    lines = es.filterMap entryLine? ∧
    ∀ e ∈ es, ∀ line, entryLine? e = some line →
      (e.isDirectory → line.getLast? = some '/') ∧
      ((∃ name ∈ e.names, ∃ b ∈ name, b ≠ 0x5C) → line.getLast? = some '/' → e.isDirectory) ∧
      (IsPlain e → (Listed.parts line).length = e.names.length ∧
        ∀ e' ∈ es, IsPlain e' → entryLine? e' = some line → e' = e)

lemma root_of_list {world : World} {root : Bytes} {depth : ℕ} {isSorted : Bool} {lines : List Text}
    (h : (list world root depth isSorted).value = .ok lines) :
    ∃ place, Listing.root world root = .ok place := by
  rw [list] at h
  cases hroot : Listing.root world root with
  | error cause => simp [hroot] at h
  | ok place => exact ⟨place, rfl⟩

lemma exists_entries_of_list {world : World} {root : Bytes} {depth : ℕ} {isSorted : Bool}
    {lines : List Text} (hlegal : world.root.Legal) (hin : isInput root = false)
    (h : (list world root depth isSorted).value = .ok lines) :
    ∃ (place : World.Place) (es : List Entry), world.find? root = .ok place ∧
      place.tree.Legal ∧ (es.map (·.names)).Nodup ∧
      (∀ e ∈ es, e.names.length ≤ depth ∧
        ∃ u, place.tree.At e.names u ∧ e.isDirectory = u.isDirectory) ∧
      lines = es.filterMap entryLine? := by
  obtain ⟨place, hroot⟩ := root_of_list h
  have hfound := (of_root_ok hroot).1
  have ht := World.legal_of_find? hlegal hfound
  rw [value_list hroot ht hin] at h
  exact ⟨place, _, hfound, ht, nodup_reached ht root depth isSorted,
    fun _ he => of_mem_reached he, (Except.ok.inj h).symm⟩

theorem list_lines_identify {world : World} {root : Bytes} {depth : ℕ} {isSorted : Bool}
    {lines : List Text} (hlegal : world.root.Legal) (hin : isInput root = false)
    (h : (list world root depth isSorted).value = .ok lines) :
    ∃ place, world.find? root = .ok place ∧ LinesIdentify place.tree depth lines := by
  obtain ⟨place, es, hfound, ht, hnodup, hes, hlines⟩ := exists_entries_of_list hlegal hin h
  have hnames {e : Entry} (he : e ∈ es) : ∀ name ∈ e.names, Path.IsName name := by
    obtain ⟨-, u, hu, -⟩ := hes e he
    exact (ht.at hu).1
  refine ⟨place, hfound, es, hnodup, hes, hlines, fun e he line hline => ?_⟩
  obtain ⟨rel, hrel, rfl⟩ := entryLine?_eq_some.mp hline
  have hslash : (Listed.render rel e.isDirectory).getLast? = some '/' ↔
      e.isDirectory ∨ ∀ name ∈ e.names, ∀ b ∈ name, b = 0x5C := by
    rw [Listed.getLast?_render, forall_mem_path (hnames he) (Utf8.encode_of_decode? hrel)]
  refine ⟨fun hdir => hslash.mpr (Or.inl hdir), fun ⟨name, hname, b, hb, hne⟩ hlast => ?_,
    fun hplain => ?_⟩
  · exact (hslash.mp hlast).resolve_right fun hall => hne (hall name hname b hb)
  · have hparts := parts_entryLine? (hnames he) hplain hline
    refine ⟨by rw [← hparts, List.length_map], fun e' he' hplain' hline' => ?_⟩
    have hparts' := parts_entryLine? (hnames he') hplain' hline'
    exact List.inj_on_of_nodup_map hnodup he' he (hparts'.symm.trans hparts)

def twinTree : Tree :=
  .directory [(Utf8.encode "a\\b".toList, .file [] false true),
    (Utf8.encode ['a'], .directory [(Utf8.encode ['b'], .file [] false true)] .free)] .free

def twins : World := ⟨twinTree, []⟩

lemma legal_twins : twins.root.Legal := by
  refine .directory (by decide) (by decide) ?_
  rintro e he
  simp only [List.mem_cons, List.not_mem_nil, or_false] at he
  rcases he with rfl | rfl
  · exact .file _ _ _
  · exact .singleton (by decide) (.file _ _ _) _

lemma find?_twins : twins.find? [Path.dot] = .ok (.top twinTree) := World.find?_dot rfl

lemma list_twins : (list twins [Path.dot] 2 false).value =
    .ok (["./", "./a/b", "./a/", "./a/b"].map String.toList) := by
  have hreached : reached [Path.dot] 2 false twinTree =
      [⟨[], true⟩, ⟨[Utf8.encode "a\\b".toList], false⟩, ⟨[Utf8.encode ['a']], true⟩,
        ⟨[Utf8.encode ['a'], Utf8.encode ['b']], false⟩] := by
    rfl
  have hvalue := value_list (root_ok find?_twins rfl rfl) legal_twins (by decide) 2 false
  rw [World.Place.top] at hvalue
  dsimp only at hvalue
  rw [hvalue, hreached]
  have h0 := entryLine?_of_encode ⟨[], true⟩ [] rfl
  have h1 := entryLine?_of_encode ⟨[Utf8.encode "a\\b".toList], false⟩ "a\\b".toList rfl
  have h2 := entryLine?_of_encode ⟨[Utf8.encode ['a']], true⟩ ['a'] rfl
  have h3 := entryLine?_of_encode ⟨[Utf8.encode ['a'], Utf8.encode ['b']], false⟩ "a/b".toList rfl
  simp only [List.filterMap_cons, List.filterMap_nil, h0, h1, h2, h3]
  decide

theorem list_lines_identify_twins :
    twins.root.Legal ∧ isInput [Path.dot] = false ∧
      (list twins [Path.dot] 2 false).value =
        .ok (["./", "./a/b", "./a/", "./a/b"].map String.toList) ∧
      ∃ place, twins.find? [Path.dot] = .ok place ∧
        LinesIdentify place.tree 2 (["./", "./a/b", "./a/", "./a/b"].map String.toList) :=
  ⟨legal_twins, by decide, list_twins, list_lines_identify legal_twins (by decide) list_twins⟩

theorem not_list_lines_identify :
    ¬ ∀ (world : World) (root : Bytes) (depth : ℕ) (isSorted : Bool) (lines : List Text),
      world.root.Legal → isInput root = false →
      (list world root depth isSorted).value = .ok lines → lines.Nodup := by
  intro h
  have hnodup := h twins [Path.dot] 2 false _ legal_twins (by decide) list_twins
  revert hnodup
  decide

end PathSieve.Listing.Walk
