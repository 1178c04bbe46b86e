import PathSieve.Proofs.Toml.Statement
import PathSieve.Toml.Document

namespace PathSieve.Toml

open Layout

def Layout.Line.IsPlain : Line → Prop
  | .blank => True
  | .setting name _ => IsBareName name
  | .dotted table f => IsBareName table ∧ IsBareName f.1
  | .inline table fs => IsBareName table ∧ (∀ f ∈ fs, IsBareName f.1) ∧ (fs.map (·.1)).Nodup
  | .header table => IsBareName table
  | .field f => IsBareName f.1

inductive Layout.Line.Means : Line → Statement → Prop
  | blank : Means .blank .blank
  | setting {name value : Text} {key : Key} (span : Span) : key.name = name →
      Means (.setting name value) (.assignment [] key (.scalar span (.string value)))
  | dotted {table : Text} {f : Field} {outer key : Key} {node : Node} : outer.name = table →
      IsField (key, node) f → Means (.dotted table f) (.assignment [outer] key node)
  | inline {table : Text} {fs : List Field} {key : Key} {es : Entries} (span : Span) :
      key.name = table → AreFields es fs →
      Means (.inline table fs) (.assignment [] key (.table (some span) .braced es))
  | header {table : Text} {key : Key} (span : Span) : key.name = table →
      Means (.header table) (.header span [] key)
  | field {f : Field} {key : Key} {node : Node} : IsField (key, node) f →
      Means (.field f) (.assignment [] key node)

lemma dropWhile_newline {t r : Text} (h : Newline t r) : t.dropWhile isText = t := by
  cases h <;> rfl

lemma lineEnd?_newline {t r : Text} (h : Newline t r) : lineEnd? t = some r := by
  cases h <;> rfl

lemma dropComment_of_comment {t u : Text} (h : Comment t u) (hu : u.dropWhile isText = u) :
    dropComment (dropSpaces t) = u := by
  cases h with
  | mk _ hs => rw [dropSpaces_cons (by decide), dropComment, List.dropWhile_append_of_pos hs, hu]

lemma lineEnd?_of_lineEnd {t r : Text} (h : LineEnd t r) : lineEnd? t = some r := by
  induction h with
  | stop => rfl
  | newline hn => exact lineEnd?_newline hn
  | last hc => rw [lineEnd?, dropComment_of_comment hc rfl]
  | comment hc hn =>
    rw [lineEnd?, dropComment_of_comment hc (dropWhile_newline hn)]
    cases hn <;> rfl
  | skip hs _ ih =>
    rw [← ih]
    rcases isSpace_iff.mp hs with rfl | rfl <;> rfl

lemma lineEnd_head {t r : Text} (h : LineEnd t r) : t.head? ≠ some '"' := by
  cases h with
  | stop => simp
  | newline hn => cases hn <;> simp
  | last hc => cases hc; simp
  | comment hc => cases hc; simp
  | skip hs => rcases isSpace_iff.mp hs with rfl | rfl <;> simp

lemma statement?_blank {t r : Text} (h : LineEnd t r) : statement? t = some (.blank, r) := by
  have hcomment {t u r : Text} (hc : Comment t u) (h : LineEnd t r) :
      statement? t = some (.blank, r) := by
    cases hc with
    | mk =>
      rw [statement?, dropSpaces_cons (by decide)]
      exact congrArg (Option.bind · _) (lineEnd?_of_lineEnd h)
  induction h with
  | stop => rfl
  | newline hn => cases hn <;> rfl
  | last hc => exact hcomment hc (.last hc)
  | comment hc hn => exact hcomment hc (.comment hc hn)
  | skip hs _ ih =>
    rw [← ih]
    rcases isSpace_iff.mp hs with rfl | rfl <;> rfl

lemma ne_of_isBare {c d : Char} (hc : isBare c) (hd : isBare d = false) : c ≠ d := by
  rintro rfl
  rw [hd] at hc
  cases hc

lemma statement?_assignment {t s u v : Text} {c : Char} {st : Statement}
    (ht : dropSpaces t = c :: s) (hc : isBare c) (h : assignment? (c :: s) = some (st, u))
    (hu : LineEnd u v) : statement? t = some (st, v) := by
  have hne {d : Char} {r : Text} (hd : isBare d = false) (he : c :: s = d :: r) : False :=
    ne_of_isBare hc hd (List.cons.inj he).1
  rw [statement?, ht]
  split
  · next he => cases he
  · next he => exact (hne (by decide) he).elim
  · next he => exact (hne (by decide) he).elim
  · next he => exact (hne (by decide) he).elim
  · next he => exact (hne (by decide) he).elim
  · rw [h, Option.bind_eq_bind, Option.bind_some]
    dsimp only
    rw [lineEnd?_of_lineEnd hu]
    rfl

lemma statement?_header {t u r v : Text} {path : List Key} {key : Key}
    (ht : dropSpaces t = '[' :: u) (hkey : dottedKey? u = some ((path, key), ']' :: r))
    (hr : LineEnd r v) : ∃ span, statement? t = some (.header span path key, v) := by
  have hheader : header? ('[' :: u) u = some (.header (.between ('[' :: u) r) path key, r) := by
    rw [header?]
    · rw [hkey]
      dsimp only [Option.bind_eq_bind, Option.bind_some]
      rw [char?_self]
      rfl
    · rintro s rfl
      cases hkey
  refine ⟨.between ('[' :: u) r, ?_⟩
  rw [statement?, ht]
  refine (congrArg (Option.bind · _) hheader).trans ?_
  exact congrArg (Option.bind · _) (lineEnd?_of_lineEnd hr)

lemma pair_dropSpaces {f : Field} {t r : Text} (hname : IsBareName f.1) (h : Pair f t r) :
    ∃ c s, dropSpaces t = c :: s ∧ isBare c ∧ Pair f (c :: s) r := by
  cases h with
  | mk ht hu hv hw =>
    obtain ⟨c, s, hdrop, hcons, hc⟩ := dropSpaces_name hname ht
    exact ⟨c, s, hdrop.trans hcons, hc, .mk (hcons ▸ .stop _) hu hv hw⟩

lemma quoted_head {s t r : Text} (h : Quoted s t r) : ∃ u, t = '"' :: u := by
  cases h with
  | mk => exact ⟨_, rfl⟩

lemma braces_head {fs : List Field} {t r : Text} (h : Braces fs t r) : ∃ u, t = '\x7b' :: u := by
  cases h <;> exact ⟨_, rfl⟩

lemma statement?_of_line {l : Line} {t u v : Text} (hl : l.IsPlain) (h : l.Written t u)
    (hu : LineEnd u v) : ∃ st, l.Means st ∧ statement? t = some (st, v) := by
  cases h with
  | blank => exact ⟨.blank, .blank, statement?_blank hu⟩
  | setting ht hk hv hw =>
    obtain ⟨c, s, hdrop, hcons, hc⟩ := dropSpaces_name hl ht
    obtain ⟨key, hkey, hread⟩ := dottedKey?_single hl (.stop _) hk (by decide)
    obtain ⟨span, hvalue⟩ := value?_of_quoted hw (lineEnd_head hu) depthLimit
    obtain ⟨_, rfl⟩ := quoted_head hw
    refine ⟨_, .setting span hkey, statement?_assignment (hdrop.trans hcons) hc ?_ hu⟩
    rw [← hcons, assignment?_of_value? hread (dropSpaces_to hv (by decide)) hvalue]
  | dotted ht hk hp =>
    obtain ⟨c, s, hdrop, hcons, hc⟩ := dropSpaces_name hl.1 ht
    cases hp with
    | mk hn he hv hw =>
      obtain ⟨outer, key, houter, hkey, hread⟩ :=
        dottedKey?_double hl.1 hl.2 (.stop _) hk hn he (by decide)
      obtain ⟨_, rfl⟩ := sequence_head hw
      obtain ⟨node, hvalue, hnode⟩ := value?_of_sequence hw (by decide : 0 < depthLimit)
      refine ⟨_, .dotted houter ⟨hkey, hnode⟩,
        statement?_assignment (hdrop.trans hcons) hc ?_ hu⟩
      rw [← hcons, assignment?_of_value? hread (dropSpaces_to hv (by decide)) hvalue]
  | inline ht hk hv hw =>
    obtain ⟨hname, hbare, hnodup⟩ := hl
    obtain ⟨c, s, hdrop, hcons, hc⟩ := dropSpaces_name hname ht
    obtain ⟨key, hkey, hread⟩ := dottedKey?_single hname (.stop _) hk (by decide)
    obtain ⟨span, es, hvalue, hes⟩ :=
      value?_of_braces hw hbare hnodup (by decide : 1 < depthLimit)
    obtain ⟨_, rfl⟩ := braces_head hw
    refine ⟨_, .inline span hkey hes, statement?_assignment (hdrop.trans hcons) hc ?_ hu⟩
    rw [← hcons, assignment?_of_value? hread (dropSpaces_to hv (by decide)) hvalue]
  | header ht hk hv =>
    obtain ⟨key, hkey, hread⟩ := dottedKey?_single hl hk hv (by decide)
    obtain ⟨span, hread⟩ := statement?_header (dropSpaces_to ht (by decide)) hread hu
    exact ⟨_, .header span hkey, hread⟩
  | field hp =>
    obtain ⟨c, s, hdrop, hc, hp⟩ := pair_dropSpaces hl hp
    obtain ⟨e, he, hread⟩ := assignment?_of_pair hl hp
    exact ⟨_, .field he, statement?_assignment hdrop hc hread hu⟩

lemma statements?_of_document {ls : List Line} {t : Text} (h : Document ls t)
    (hls : ∀ l ∈ ls, l.IsPlain) {fuel : ℕ} (hfuel : t.length ≤ fuel) :
    ∃ sts, statements? fuel t = some sts ∧ List.Forall₂ Line.Means ls sts := by
  induction h generalizing fuel with
  | nil => exact ⟨[], by cases fuel <;> rfl, .nil⟩
  | @cons l ls t u v ht hl hu _ ih =>
    have hlen := written_length hl
    have hlen' := lineEnd_length hu
    have hpos := List.length_pos_iff.mpr ht
    -- a line that takes nothing is still followed by a newline
    have hlt : v.length < t.length := by
      by_cases hu' : u = []
      · rw [hu', List.length_nil] at hlen'
        omega
      · exact (hlen'.2 hu').trans_le hlen
    obtain ⟨fuel, rfl⟩ : ∃ n, fuel = n + 1 := Nat.exists_eq_add_one.mpr (by omega)
    obtain ⟨st, hst, hread⟩ := statement?_of_line (hls l List.mem_cons_self) hl hu
    have hshort : v.length ≤ fuel := by omega
    obtain ⟨sts, hrest, hsts⟩ := ih (fun m hm => hls m (List.mem_cons_of_mem l hm)) hshort
    refine ⟨st :: sts, ?_, .cons hst hsts⟩
    rw [statements?, hread]
    · dsimp only [Option.bind_eq_bind, Option.bind_some]
      rw [hrest]
      rfl
    · exact ht

lemma dropMark_of_document {ls : List Line} {t : Text} (h : Document ls t)
    (hls : ∀ l ∈ ls, l.IsPlain) : dropMark t = t := by
  rw [dropMark.eq_def]
  split
  · next s =>
    cases h with
    | cons _ hl hu =>
      obtain ⟨st, -, hread⟩ := statement?_of_line (hls _ List.mem_cons_self) hl hu
      cases hread
  · rfl

lemma parse?_of_document {ls : List Line} {t : Text} (h : Document ls t)
    (hls : ∀ l ∈ ls, l.IsPlain) :
    ∃ sts, List.Forall₂ Line.Means ls sts ∧
      parse? t = (sts.foldlM Draft.add? (.start t)).map (·.root) := by
  obtain ⟨sts, hread, hsts⟩ := statements?_of_document h hls le_rfl
  refine ⟨sts, hsts, ?_⟩
  rw [parse?, dropMark_of_document h hls, hread, Option.map_eq_bind]
  rfl

end PathSieve.Toml
