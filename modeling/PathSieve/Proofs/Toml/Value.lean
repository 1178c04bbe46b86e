import PathSieve.Proofs.Except
import PathSieve.Proofs.Toml.Length
import PathSieve.Settings.Decode

namespace PathSieve.Toml

open Layout

lemma isSpace_iff {c : Char} : isSpace c ↔ c = ' ' ∨ c = '\t' := by
  rw [isSpace, Bool.or_eq_true, decide_eq_true_eq, decide_eq_true_eq]

lemma dropSpaces_of_spaces {t r : Text} (h : Spaces t r) : dropSpaces t = dropSpaces r := by
  induction h with
  | stop => rfl
  | skip hc _ ih => rw [dropSpaces, List.dropWhile_cons_of_pos hc, ← ih, dropSpaces]

lemma dropSpaces_cons {c : Char} (hc : isSpace c = false) (r : Text) :
    dropSpaces (c :: r) = c :: r := by
  rw [dropSpaces, List.dropWhile_cons_of_neg (by simp [hc])]

lemma dropSpaces_to {t r : Text} {c : Char} (h : Spaces t (c :: r)) (hc : isSpace c = false) :
    dropSpaces t = c :: r := by
  rw [dropSpaces_of_spaces h, dropSpaces_cons hc]

lemma dropBlank_newline {t r : Text} (h : Newline t r) (inComment : Bool) :
    dropBlank inComment t = dropBlank false r := by
  cases h <;> cases inComment <;> rfl

lemma dropBlank_text {s : Text} (hs : ∀ c ∈ s, isText c) {u r : Text} (hu : Newline u r) :
    dropBlank true (s ++ u) = dropBlank false r := by
  induction s with
  | nil => exact dropBlank_newline hu true
  | cons c s ih =>
    have hc : isText c := hs c List.mem_cons_self
    have hn : c ≠ '\n' := by
      rintro rfl
      exact absurd hc (by decide)
    have hr : c ≠ '\r' := by
      rintro rfl
      exact absurd hc (by decide)
    rw [List.cons_append, dropBlank, if_pos hc, ih fun d hd => hs d (List.mem_cons_of_mem c hd)]
    · exact hn
    · intro _ h
      exact absurd h hr

lemma dropBlank_of_filler {t r : Text} (h : Filler t r) :
    dropBlank false t = dropBlank false r := by
  induction h with
  | stop => rfl
  | skip hc _ ih =>
    rw [← ih]
    rcases isSpace_iff.mp hc with rfl | rfl <;> rfl
  | newline hn _ ih => rw [dropBlank_newline hn, ih]
  | comment hc hn _ ih =>
    cases hc with
    | mk _ hs =>
      rw [← ih, ← dropBlank_text hs hn]
      rfl

lemma dropBlank_to {t r : Text} {c : Char} (h : Filler t (c :: r))
    (hc : dropBlank false (c :: r) = c :: r) : dropBlank false t = c :: r := by
  rw [dropBlank_of_filler h, hc]

lemma valueOf_eq_ofDigits (values : List ℕ) :
    Text.valueOf 16 values = Nat.ofDigits 16 values.reverse := by
  rw [Nat.ofDigits_eq_foldr, List.foldr_reverse, Text.valueOf]
  congr
  funext n d
  simp [Nat.mul_comm, Nat.add_comm]

lemma mapM_of_forall₂ {α β : Type} {f : α → Option β} {as : List α} {bs : List β}
    (h : List.Forall₂ (fun a b => f a = some b) as bs) : as.mapM f = some bs := by
  induction h with
  | nil => rfl
  | cons ha _ ih =>
    rw [List.mapM_cons, ha, ih]
    rfl

lemma scalar?_of_numbers {digits : Text} {c : Char} (h : Numbers digits c) :
    Text.scalar? digits = some c := by
  obtain ⟨values, hdigits, hvalue⟩ := h
  rw [← valueOf_eq_ofDigits] at hvalue
  have hvalid : (Text.valueOf 16 values).isValidChar := hvalue ▸ c.valid
  rw [Text.scalar?, mapM_of_forall₂ hdigits]
  refine (dif_pos hvalid).trans (congrArg some ?_)
  refine Char.ext (UInt32.toNat_inj.mp ?_)
  exact hvalue

lemma basic?_of_body {s t r : Text} (h : Body s t r) : basic? t = some (s, r) := by
  induction h with
  | close => rw [basic?]
  | @plain c s t r hc hq hb _ ih =>
    rw [basic?, ih]
    · simp [hc, hb]
    all_goals simp [hq, hb]
  | @short c e s t r he _ ih =>
    have hu : e ≠ 'u' := by
      rintro rfl
      cases he
    have hU : e ≠ 'U' := by
      rintro rfl
      cases he
    rw [basic?, he, ih]
    · rfl
    · simp [hu]
    · simp [hU]
  | four hx _ ih =>
    rw [basic?, scalar?_of_numbers hx, ih]
    rfl
  | eight hx _ ih =>
    rw [basic?, scalar?_of_numbers hx, ih]
    rfl

lemma string?_of_quoted {s t r : Text} (h : Quoted s t r) (hr : r.head? ≠ some '"') :
    string? t = some (s, r) := by
  cases h with
  | mk h =>
    rw [string?]
    · exact basic?_of_body h
    · intro u hu
      cases (List.cons.inj hu).2
      cases h with
      | close => exact hr rfl
      | plain _ hq => exact hq rfl
    · simp

lemma value?_of_quoted {s t r : Text} (h : Quoted s t r) (hr : r.head? ≠ some '"') (depth : ℕ) :
    ∃ span, value? depth t = some (.scalar span (.string s), r) := by
  have hstring := string?_of_quoted h hr
  have hscalar : scalarValue? t = some (.string s, r) := by
    rw [scalarValue?, hstring]
    rfl
  refine ⟨.between t r, ?_⟩
  cases h with
  | mk h =>
    rw [value?, hscalar]
    · rfl
    all_goals simp

def Strings (nodes : List Node) (ss : List Text) : Prop :=
  List.Forall₂ (fun node s => ∃ span, node = .scalar span (.string s)) nodes ss

lemma filler_head {t r : Text} {c : Char} (h : Filler t (c :: r)) (hc : c ≠ '"') :
    t.head? ≠ some '"' := by
  cases h with
  | stop => simp [hc]
  | skip hs =>
    rcases isSpace_iff.mp hs with rfl | rfl <;> simp
  | newline hn => cases hn <;> simp
  | comment hn => cases hn; simp

lemma items?_quoted {s t u v w : Text} {c : Char} (ht : Filler t u) (hq : Quoted s u v)
    (hv : Filler v (c :: w)) (hc : c ≠ '"') (hw : dropBlank false (c :: w) = c :: w)
    (fuel depth : ℕ) :
    ∃ node, (∃ span, node = .scalar span (.string s)) ∧
      items? (value? depth) (fuel + 1) t =
        match c :: w with
        | ',' :: r => do
          let (nodes, r) ← items? (value? depth) fuel r
          some (node :: nodes, r)
        | ']' :: r => some ([node], r)
        | _ => none := by
  obtain ⟨span, hvalue⟩ := value?_of_quoted hq (filler_head hv hc) depth
  refine ⟨.scalar span (.string s), ⟨span, rfl⟩, ?_⟩
  cases hq with
  | mk _ =>
    rw [items?, dropBlank_to ht rfl]
    refine (congrArg (Option.bind · _) hvalue).trans ?_
    rw [Option.bind_some]
    dsimp only
    rw [dropBlank_to hv hw]
    rfl

lemma items?_of_items {ss : List Text} {t r : Text} (h : Items ss t r) {fuel : ℕ}
    (hfuel : t.length ≤ fuel) (depth : ℕ) :
    ∃ nodes, items? (value? depth) fuel t = some (nodes, r) ∧ Strings nodes ss := by
  induction h generalizing fuel with
  | @close t r ht =>
    have hlen := filler_length ht
    obtain ⟨fuel, rfl⟩ : ∃ n, fuel = n + 1 := Nat.exists_eq_add_one.mpr (by simp at hlen; omega)
    rw [items?, dropBlank_to ht rfl]
    exact ⟨[], rfl, .nil⟩
  | @last s t u v r ht hq hv =>
    have hlen := quoted_length hq
    have hlen' := filler_length ht
    obtain ⟨fuel, rfl⟩ : ∃ n, fuel = n + 1 := Nat.exists_eq_add_one.mpr (by omega)
    obtain ⟨node, hnode, hitem⟩ := items?_quoted ht hq hv (by decide) rfl fuel depth
    exact ⟨_, hitem, .cons hnode .nil⟩
  | @more s t u v w r ss ht hq hv _ ih =>
    have hlen := quoted_length hq
    have hlen' := filler_length ht
    have hlen'' := filler_length hv
    rw [List.length_cons] at hlen''
    obtain ⟨fuel, rfl⟩ : ∃ n, fuel = n + 1 := Nat.exists_eq_add_one.mpr (by omega)
    have hshort : w.length ≤ fuel := by omega
    obtain ⟨nodes, hitems, hnodes⟩ := ih hshort
    obtain ⟨node, hnode, hitem⟩ := items?_quoted ht hq hv (by decide) rfl fuel depth
    refine ⟨node :: nodes, hitem.trans ?_, .cons hnode hnodes⟩
    exact congrArg (Option.bind · _) hitems

def IsList (node : Node) (ss : List Text) : Prop :=
  ∃ span nodes, node = .array span nodes ∧ Strings nodes ss

lemma value?_of_sequence {ss : List Text} {t r : Text} (h : Sequence ss t r) {depth : ℕ}
    (hdepth : 0 < depth) : ∃ node, value? depth t = some (node, r) ∧ IsList node ss := by
  obtain ⟨depth, rfl⟩ := Nat.exists_eq_add_one.mpr hdepth
  cases h with
  | mk h =>
    obtain ⟨nodes, hitems, hnodes⟩ := items?_of_items h le_rfl depth
    rw [value?, hitems]
    exact ⟨_, rfl, _, nodes, rfl, hnodes⟩

lemma texts_of_isList {node : Node} {ss : List Text} (h : IsList node ss) :
    Settings.texts node = .ok ss := by
  obtain ⟨span, nodes, rfl, hnodes⟩ := h
  have hmap : nodes.mapM Settings.text = .ok ss := by
    rw [Except.mapM_ok]
    refine hnodes.imp ?_
    rintro node s ⟨_, rfl⟩
    rfl
  rw [Settings.texts, hmap]
  rfl

end PathSieve.Toml
