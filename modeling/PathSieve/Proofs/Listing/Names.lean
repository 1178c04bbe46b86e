import PathSieve.Proofs.Listing.Lines
import PathSieve.Proofs.Text.Utf8.Lines

namespace PathSieve

def Tree.HasNames (p : Text → Prop) (t : Tree) : Prop :=
  ∀ names u, t.At names u → ∀ name ∈ names, ∃ s, Utf8.encode s = name ∧ p s

lemma Tree.HasNames.imp {p q : Text → Prop} {t : Tree} (h : t.HasNames p)
    (hpq : ∀ s, p s → q s) : t.HasNames q := by
  intro names u hu name hname
  obtain ⟨s, hs, hp⟩ := h names u hu name hname
  exact ⟨s, hs, hpq s hp⟩

lemma Tree.HasNames.exists_texts {p : Text → Prop} {t u : Tree} (h : t.HasNames p)
    {names : List Bytes} (hu : t.At names u) :
    ∃ ss : List Text, ss.map Utf8.encode = names ∧ ∀ s ∈ ss, p s := by
  have hnames := h names u hu
  clear h hu
  induction names with
  | nil => exact ⟨[], rfl, fun _ hs => absurd hs List.not_mem_nil⟩
  | cons name names ih =>
    obtain ⟨⟨s, hs, hp⟩, hrest⟩ := List.forall_mem_cons.mp hnames
    obtain ⟨ss, hss, hps⟩ := ih hrest
    exact ⟨s :: ss, by rw [List.map_cons, hs, hss], List.forall_mem_cons.mpr ⟨hp, hps⟩⟩

namespace Listed

def IsPlainName (s : Text) : Prop := Path.IsName (Utf8.encode s) ∧ '\\' ∉ s

lemma IsPlainName.ne_nil {s : Text} (h : IsPlainName s) : s ≠ [] := by
  rintro rfl
  exact h.1.1 rfl

lemma IsPlainName.slash_notMem {s : Text} (h : IsPlainName s) : '/' ∉ s := fun hs =>
  h.1.2.1 ((Utf8.mem_encode_ascii (v := 0x2F) (by decide)).mpr hs)

lemma IsPlainName.ne_dot {s : Text} (h : IsPlainName s) : s ≠ ['.'] := by
  rintro rfl
  exact h.1.2.2.1 rfl

variable {ss : List Text}

lemma join_ne_nil (hss : ss ≠ []) (h : ∀ s ∈ ss, IsPlainName s) : Text.join ['/'] ss ≠ [] := by
  cases ss with
  | nil => exact absurd rfl hss
  | cons s ss => simp [Text.join_cons, (h s List.mem_cons_self).ne_nil]

lemma getLast?_join_ne_slash (h : ∀ s ∈ ss, IsPlainName s) :
    (Text.join ['/'] ss).getLast? ≠ some '/' := by
  intro hslash
  have hss : ss ≠ [] := by
    rintro rfl
    cases hslash
  obtain ⟨s, hs, hlast⟩ := Text.exists_getLast?_join ['/'] hss fun s hs => (h s hs).ne_nil
  exact (h s hs).slash_notMem (List.mem_of_getLast? (hlast.symm.trans hslash))

lemma clean_join (h : ∀ s ∈ ss, IsPlainName s) :
    clean (Text.join ['/'] ss) = Text.join ['/'] ss := by
  have hbackslash : '\\' ∉ Text.join ['/'] ss := by
    rw [Text.mem_join (by decide)]
    rintro ⟨s, hs, hmem⟩
    exact (h s hs).2 hmem
  refine clean_eq_iff.mpr ⟨getLast?_join_ne_slash h, 0, ?_⟩
  rw [unescaped_eq_self hbackslash, List.replicate_zero, List.append_nil]

lemma render_join (hss : ss ≠ []) (h : ∀ s ∈ ss, IsPlainName s) (isDirectory : Bool) :
    render (Text.join ['/'] ss) isDirectory =
      mark ++ Text.join ['/'] ss ++ if isDirectory then ['/'] else [] := by
  rw [render, clean_join h, if_neg fun he => join_ne_nil hss h (List.isEmpty_iff.mp he)]

lemma strip_render_join (hss : ss ≠ []) (h : ∀ s ∈ ss, IsPlainName s) (isDirectory : Bool) :
    strip (render (Text.join ['/'] ss) isDirectory) =
      Text.join ['/'] ss ++ if isDirectory then ['/'] else [] := by
  rw [render_join hss h, List.append_assoc, strip_mark_append]

def unmarked (line : Text) : Text :=
  if line ≠ mark ∧ line.getLast? = some '/' then line.dropLast else line

lemma unmarked_render (h : ∀ s ∈ ss, IsPlainName s) (isDirectory : Bool) :
    unmarked (render (Text.join ['/'] ss) isDirectory) = mark ++ Text.join ['/'] ss := by
  by_cases hss : ss = []
  · subst hss
    rfl
  have hne := join_ne_nil hss h
  rw [render_join hss h, unmarked]
  cases isDirectory with
  | true =>
    have hmark : mark ++ Text.join ['/'] ss ++ ['/'] ≠ mark := by simp
    rw [if_pos rfl, if_pos ⟨hmark, List.getLast?_concat⟩, List.dropLast_concat]
  | false =>
    rw [if_neg Bool.false_ne_true, List.append_nil, List.getLast?_append_of_ne_nil _ hne]
    exact if_neg fun hslash => getLast?_join_ne_slash h hslash.2

end Listed

namespace Listing

structure IsLineName (s : Text) : Prop where
  newline_notMem : '\n' ∉ s
  backslash_notMem : '\\' ∉ s
  getLast?_ne : s.getLast? ≠ some '\r'

lemma exists_names {p : Text → Prop} (hp : ∀ s, p s → '\\' ∉ s) {t u : Tree} (ht : t.Legal)
    (hnames : t.HasNames p) {names : List Bytes} (hu : t.At names u) :
    ∃ ss : List Text, ss.map Utf8.encode = names ∧ ∀ s ∈ ss, Listed.IsPlainName s ∧ p s := by
  obtain ⟨ss, hss, hall⟩ := hnames.exists_texts hu
  refine ⟨ss, hss, fun s hs => ⟨⟨?_, hp s (hall s hs)⟩, hall s hs⟩⟩
  exact (ht.at hu).1 _ (hss ▸ List.mem_map_of_mem hs)

variable {ss : List Text}

lemma newline_notMem_join (h : ∀ s ∈ ss, IsLineName s) : '\n' ∉ Text.join ['/'] ss := by
  rw [Text.mem_join (by decide)]
  rintro ⟨s, hs, hmem⟩
  exact (h s hs).newline_notMem hmem

lemma getLast?_join_ne (h : ∀ s ∈ ss, s ≠ [] ∧ IsLineName s) :
    (Text.join ['/'] ss).getLast? ≠ some '\r' := by
  by_cases hnil : ss = []
  · subst hnil
    decide
  · obtain ⟨s, hs, hlast⟩ := Text.exists_getLast?_join ['/'] hnil fun s hs => (h s hs).1
    rw [hlast]
    exact (h s hs).2.getLast?_ne

lemma Walk.entryPath_texts {e : Tree.Entry} (h : ss.map Utf8.encode = e.names) :
    entryPath e = Utf8.encode (Text.join ['/'] ss) := by
  rw [entryPath, ← h, Utf8.encode_join]
  rfl

lemma Walk.exists_texts_of_line {e : Tree.Entry} (hnames : ∀ name ∈ e.names, Path.IsName name)
    (he : IsPlain e) {line : Text} (h : entryLine? e = some line) :
    ∃ ss : List Text, ss.map Utf8.encode = e.names ∧ (∀ s ∈ ss, Listed.IsPlainName s) ∧
      line = Listed.render (Text.join ['/'] ss) e.isDirectory := by
  have hss := parts_entryLine? hnames he h
  refine ⟨Listed.parts line, hss, fun s hs => ?_, ?_⟩
  · have hname : Utf8.encode s ∈ e.names := hss ▸ List.mem_map_of_mem hs
    refine ⟨hnames _ hname, fun hbackslash => he _ hname ?_⟩
    exact (Utf8.mem_encode_ascii (v := 0x5C) (by decide)).mpr hbackslash
  · have hline := entryLine?_of_encode e _ (entryPath_texts hss)
    exact Option.some.inj (h.symm.trans hline)

end Listing

end PathSieve
