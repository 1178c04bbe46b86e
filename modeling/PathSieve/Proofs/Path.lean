import PathSieve.Path.Relative
import PathSieve.Proofs.Text.Split

/-! Paths below a root. The path that a walk gives to an entry leads back to the names of the
entry, however the root is spelled. -/

namespace PathSieve.Path

def IsName (name : Bytes) : Prop :=
  name ≠ [] ∧ slash ∉ name ∧ name ≠ [dot] ∧ name ≠ [dot, dot]

instance (name : Bytes) : Decidable (IsName name) := inferInstanceAs (Decidable (_ ∧ _))

def spell (root : Bytes) (names : List Bytes) : Bytes := names.foldl join root

lemma spell_append (root : Bytes) (names more : List Bytes) :
    spell root (names ++ more) = spell (spell root names) more := List.foldl_append

lemma spell_concat (root : Bytes) (names : List Bytes) (name : Bytes) :
    spell root (names ++ [name]) = join (spell root names) name := spell_append root names [name]

lemma IsName.not_isAbsolute {name : Bytes} (h : IsName name) : isAbsolute name = false := by
  cases name with
  | nil => rfl
  | cons b s =>
    have hb : b ≠ slash := fun hb => h.2.1 (hb ▸ List.mem_cons_self)
    simp [isAbsolute, hb]

lemma IsName.splitOn {name : Bytes} (h : IsName name) :
    Text.splitOn (· == slash) name = [name] := by
  refine Text.splitOn_eq_singleton fun b hb he => h.2.1 ?_
  rwa [← beq_iff_eq.mp he]

lemma IsName.pieces {name : Bytes} (h : IsName name) : pieces name = [.name name] := by
  rw [Path.pieces, h.splitOn]
  simp [h.1, Component.ofPiece, h.2.2]

lemma pieces_append (base path : Bytes) :
    pieces (base ++ slash :: path) = pieces base ++ pieces path := by
  have h := Text.splitOn_append (p := (· == slash)) (beq_self_eq_true slash) base path
  rw [pieces, h, List.filter_append, List.map_append]
  rfl

lemma pieces_join {base path : Bytes} (h : isAbsolute path = false) :
    pieces (join base path) = pieces base ++ pieces path := by
  rw [join, h, if_neg Bool.false_ne_true]
  cases hl : base.getLast? with
  | none =>
    rw [List.getLast?_eq_none_iff.mp hl]
    rfl
  | some last =>
    dsimp only
    split_ifs with hs
    · obtain ⟨front, rfl⟩ := List.getLast?_eq_some_iff.mp (hs ▸ hl)
      have hp := pieces_append front []
      rw [List.append_assoc, List.singleton_append, pieces_append, hp]
      simp [pieces, Text.splitOn]
    · exact pieces_append base path

lemma isAbsolute_join {base path : Bytes} (h : isAbsolute path = false) :
    isAbsolute (join base path) = isAbsolute base := by
  rw [join, h, if_neg Bool.false_ne_true]
  cases base with
  | nil => exact h
  | cons b base =>
    cases hl : (b :: base).getLast? with
    | none => simp at hl
    | some last =>
      dsimp only
      split_ifs <;> rfl

lemma length_le_join (base : Bytes) {path : Bytes} (h : isAbsolute path = false) :
    base.length + path.length ≤ (join base path).length := by
  rw [join, h, if_neg Bool.false_ne_true]
  cases hl : base.getLast? with
  | none => simp [List.getLast?_eq_none_iff.mp hl]
  | some last =>
    dsimp only
    split_ifs <;> simp

lemma components_of_pieces {base path : Bytes} {cs : List Component}
    (habsolute : isAbsolute path = isAbsolute base) (hpieces : pieces path = pieces base ++ cs)
    (hcurrent : .current ∉ cs) : components path = components base ++ cs := by
  have hinner : cs.filter (· != .current) = cs := by
    refine List.filter_eq_self.mpr fun c hc => bne_iff_ne.mpr ?_
    rintro rfl
    exact hcurrent hc
  rw [components, components, habsolute, hpieces]
  cases isAbsolute base with
  | true => simp [hinner]
  | false =>
    cases pieces base with
    | cons first rest => cases first <;> simp [hinner]
    | nil =>
      -- without a base, `cs` could only lose a `.` in front
      cases cs with
      | nil => rfl
      | cons c cs =>
        cases c with
        | current => exact absurd List.mem_cons_self hcurrent
        | root | parent | name => exact hinner

lemma pieces_spell (root : Bytes) {names : List Bytes} (h : ∀ name ∈ names, IsName name) :
    pieces (spell root names) = pieces root ++ names.map .name := by
  induction names generalizing root with
  | nil => simp [spell]
  | cons name names ih =>
    have hname := h name List.mem_cons_self
    have hs : spell root (name :: names) = spell (join root name) names := rfl
    rw [hs, ih _ fun n hn => h n (List.mem_cons_of_mem name hn), pieces_join hname.not_isAbsolute,
      hname.pieces, List.append_assoc]
    rfl

lemma isAbsolute_spell (root : Bytes) {names : List Bytes} (h : ∀ name ∈ names, IsName name) :
    isAbsolute (spell root names) = isAbsolute root := by
  induction names generalizing root with
  | nil => rfl
  | cons name names ih =>
    have hs : spell root (name :: names) = spell (join root name) names := rfl
    rw [hs, ih _ fun n hn => h n (List.mem_cons_of_mem name hn),
      isAbsolute_join (h name List.mem_cons_self).not_isAbsolute]

lemma steps?_append (cs as : List Component) : steps? false (cs ++ as) cs = some as := by
  induction cs with
  | nil => cases as <;> rfl
  | cons c cs ih => simp [steps?, ih]

lemma join_name {base name : Bytes} (hb : ∃ last ∈ base.getLast?, last ≠ slash)
    (h : IsName name) : join base name = base ++ slash :: name := by
  obtain ⟨last, hl, hs⟩ := hb
  rw [join, h.not_isAbsolute, if_neg Bool.false_ne_true, Option.mem_def.mp hl]
  exact if_neg hs

lemma IsName.last {name : Bytes} (h : IsName name) (base : Bytes) :
    ∃ last ∈ (base ++ name).getLast?, last ≠ slash := by
  refine ⟨name.getLast h.1, ?_, fun hs => h.2.1 (hs ▸ List.getLast_mem h.1)⟩
  rw [List.getLast?_append_of_ne_nil base h.1, List.getLast?_eq_some_getLast h.1]
  rfl

lemma spell_of_last {base : Bytes} (hb : ∃ last ∈ base.getLast?, last ≠ slash) {names : List Bytes}
    (h : ∀ name ∈ names, IsName name) :
    spell base names = base ++ names.flatMap ([slash] ++ ·) := by
  induction names generalizing base with
  | nil => simp [spell]
  | cons name names ih =>
    have hname := h name List.mem_cons_self
    have hlast : ∃ last ∈ (base ++ slash :: name).getLast?, last ≠ slash := by
      rw [List.append_cons]
      exact hname.last _
    have hs : spell base (name :: names) = spell (join base name) names := rfl
    rw [hs, join_name hb hname, ih hlast fun n hn => h n (List.mem_cons_of_mem name hn)]
    simp

lemma spell_mark {names : List Bytes} (h : ∀ name ∈ names, IsName name) :
    spell [dot, slash] names = [dot, slash] ++ Text.join [slash] names := by
  cases names with
  | nil => rfl
  | cons name names =>
    have hname := h name List.mem_cons_self
    have hjoin : join [dot, slash] name = [dot, slash] ++ name := by
      rw [join, hname.not_isAbsolute, if_neg Bool.false_ne_true]
      rfl
    have hs : spell [dot, slash] (name :: names) = spell (join [dot, slash] name) names := rfl
    rw [hs, hjoin, spell_of_last (hname.last _) fun n hn => h n (List.mem_cons_of_mem name hn),
      Text.join_cons, List.append_assoc]

lemma spell_nil {names : List Bytes} (h : ∀ name ∈ names, IsName name) :
    spell [] names = Text.join [slash] names := by
  cases names with
  | nil => rfl
  | cons name names =>
    have hs : spell [] (name :: names) = spell name names := by
      show spell (join [] name) names = _
      rw [join_nil]
    have hlast : ∃ last ∈ name.getLast?, last ≠ slash := (h name List.mem_cons_self).last []
    rw [hs, spell_of_last hlast fun n hn => h n (List.mem_cons_of_mem name hn), Text.join_cons]

lemma assemble_names {names : List Bytes} (h : ∀ name ∈ names, IsName name) :
    assemble (names.map .name) = Text.join [slash] names := by
  rw [← spell_nil h, assemble, List.foldl_map]
  rfl

lemma isAbsolute_join_names {names : List Bytes} (h : ∀ name ∈ names, IsName name) :
    isAbsolute (Text.join [slash] names) = false := by
  rw [← spell_nil h, isAbsolute_spell [] h]
  rfl

lemma pieces_join_names {names : List Bytes} (h : ∀ name ∈ names, IsName name) :
    pieces (Text.join [slash] names) = names.map .name := by
  rw [← spell_nil h, pieces_spell [] h]
  rfl

section Below

variable {root path : Bytes} {names : List Bytes}

/-- What leads from `root` to `path` goes down by these names alone. The components of the root are
shared, so neither a step up nor the whole path is ever the answer. -/
structure StaysBelow (root path : Bytes) (names : List Bytes) : Prop where
  relative_eq : relative path root = Text.join [slash] names
  relative_eq_nil_iff : relative path root = [] ↔ names = []
  isAbsolute_relative : isAbsolute (relative path root) = false
  components_relative : components (relative path root) = names.map .name
  isAbsolute_eq : isAbsolute path = isAbsolute root
  steps_eq : steps? false (components path) (components root) = some (names.map .name)

lemma staysBelow_of_pieces (h : ∀ name ∈ names, IsName name)
    (habsolute : isAbsolute path = isAbsolute root)
    (hpieces : pieces path = pieces root ++ names.map .name) : StaysBelow root path names := by
  have hcurrent : Component.current ∉ names.map Component.name := by simp
  have hsteps : steps? false (components path) (components root) = some (names.map .name) := by
    rw [components_of_pieces habsolute hpieces hcurrent, steps?_append]
  have hrelative : relative path root = Text.join [slash] names := by
    rw [relative, habsolute, bne_self_eq_false, if_neg Bool.false_ne_true, hsteps]
    exact assemble_names h
  have hcomponents : components (relative path root) = names.map .name := by
    have hdown : isAbsolute (Text.join [slash] names) = isAbsolute [] := isAbsolute_join_names h
    rw [hrelative]
    exact components_of_pieces hdown (pieces_join_names h) hcurrent
  refine ⟨hrelative, ⟨fun hnil => ?_, ?_⟩, hrelative ▸ isAbsolute_join_names h, hcomponents,
    habsolute, hsteps⟩
  · rw [hnil, eq_comm] at hcomponents
    exact List.map_eq_nil_iff.mp hcomponents
  · rintro rfl
    exact hrelative

lemma staysBelow_spell (root : Bytes) (h : ∀ name ∈ names, IsName name) :
    StaysBelow root (spell root names) names :=
  staysBelow_of_pieces h (isAbsolute_spell root h) (pieces_spell root h)

lemma staysBelow_join (root : Bytes) (h : ∀ name ∈ names, IsName name) :
    StaysBelow root (join root (Text.join [slash] names)) names := by
  have hdown := isAbsolute_join_names h
  refine staysBelow_of_pieces h (isAbsolute_join hdown) ?_
  rw [pieces_join hdown, pieces_join_names h]

end Below

end PathSieve.Path
