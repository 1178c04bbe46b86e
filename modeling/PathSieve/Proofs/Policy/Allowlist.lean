import PathSieve.Policy
import PathSieve.Proofs.Except
import PathSieve.Proofs.Glob.Parse

/-! What a compiled allowlist accepts, in terms of the meaning of its patterns. -/

namespace PathSieve

namespace Glob

def DecidedByName (pattern : Text) : Prop :=
  ∃ ts, parse pattern = .ok ts ∧ (Method.ofTokens ts).isByName = true

lemma decidedByName_iff {pattern : Text} {ts : List Token} (h : parse pattern = .ok ts) :
    DecidedByName pattern ↔ (Method.ofTokens ts).isByName = true := by
  constructor
  · rintro ⟨us, hu, hm⟩
    obtain rfl := Except.ok.inj (h.symm.trans hu)
    exact hm
  · exact fun hm => ⟨ts, h, hm⟩

lemma accepts_iff {ts : List Token} {path : Bytes} :
    accepts ts path = true ↔
      Accepted ts path ∧ ¬ ((Method.ofTokens ts).isByName = true ∧ endsInParent path = true) := by
  by_cases h : ts = [.dirsBefore]
  · subst h
    have hm : (Method.ofTokens [.dirsBefore]).isByName = false := rfl
    simp [accepts, Accepted, hm]
  · have ha : accepts ts path =
        (covers ts path && !((Method.ofTokens ts).isByName && endsInParent path)) := by
      rw [accepts]
      exact fun he => h he
    rw [ha, Accepted, or_iff_right h, ← covers_iff_mem_language, Bool.and_eq_true,
      Bool.not_eq_true', Bool.and_eq_false_iff, not_and_or, Bool.not_eq_true, Bool.not_eq_true]

lemma accepts_iff_matches {pattern : Text} {ts : List Token} (h : parse pattern = .ok ts)
    (ha : starsApart 0 (pieces pattern).1 = true) (path : Bytes) :
    accepts ts path = true ↔
      Matches pattern path ∧ ¬ (DecidedByName pattern ∧ endsInParent path = true) := by
  rw [accepts_iff, decidedByName_iff h]
  refine and_congr_left fun _ => ?_
  constructor
  · intro hacc
    obtain ⟨ns, hv, rfl⟩ := exists_nodes h
    rw [pieces_text hv] at ha
    obtain ⟨out, hout, hiff⟩ := parse_text hv ha
    obtain rfl := Except.ok.inj (h.symm.trans hout)
    exact ⟨ns, hv, rfl, (hiff path).mp hacc⟩
  · rintro ⟨ns, hv, rfl, hc⟩
    rw [pieces_text hv] at ha
    obtain ⟨out, hout, hiff⟩ := parse_text hv ha
    obtain rfl := Except.ok.inj (h.symm.trans hout)
    exact (hiff path).mpr hc

end Glob

namespace Allowlist

open Glob

def parseOne (source : Text) : Except PatternError Pattern :=
  match parse source with
  | .ok ts => .ok ⟨source, ts⟩
  | .error why => .error (.malformed source why)

lemma parseOne_ok {source : Text} {g : Pattern} :
    parseOne source = .ok g ↔ g.source = source ∧ parse source = .ok g.tokens := by
  rw [parseOne]
  cases hp : parse source with
  | ok ts =>
    constructor
    · rintro ⟨⟩
      exact ⟨rfl, rfl⟩
    · rintro ⟨rfl, ht⟩
      cases ht
      rfl
  | error why => simp

lemma parseAll_ok {patterns : List Text} {globs : List Pattern} :
    parseAll patterns = .ok globs ↔
      List.Forall₂ (fun source g => parseOne source = .ok g) patterns globs :=
  Except.mapM_ok

lemma compile_ok {patterns : List Text} {list : Allowlist} (h : compile patterns = .ok list) :
    parseAll patterns = .ok list.globs := by
  cases hp : parseAll patterns with
  | error e => simp [compile, hp, bind, Except.bind] at h
  | ok globs =>
    simp only [compile, hp, bind, Except.bind] at h
    split at h
    · cases h
    · cases h
      rfl

lemma accepts_iff_exists {patterns : List Text} {list : Allowlist}
    (h : compile patterns = .ok list) (path : Text) :
    list.accepts path = true ↔ path ≠ [] ∧ ∃ pattern ∈ patterns, ∃ ts,
      parse pattern = .ok ts ∧ Glob.accepts ts (Utf8.encode path) = true := by
  have hf := parseAll_ok.mp (compile_ok h)
  rw [Allowlist.accepts, Bool.and_eq_true, List.any_eq_true]
  refine and_congr (by simp) ?_
  constructor
  · rintro ⟨g, hg, ha⟩
    obtain ⟨source, hs, hp⟩ := Except.exists_left hf hg
    exact ⟨source, hs, g.tokens, (parseOne_ok.mp hp).2, ha⟩
  · rintro ⟨source, hs, ts, hp, ha⟩
    obtain ⟨g, hg, hp'⟩ := Except.exists_right hf hs
    obtain rfl := Except.ok.inj (hp.symm.trans (parseOne_ok.mp hp').2)
    exact ⟨g, hg, ha⟩

/-- The empty path aside, an allowlist captures exactly the paths that one of its patterns covers.
A path whose last component is `..` has no name, which keeps the patterns that look for one from
accepting it. -/
theorem captures_iff_matches {patterns : List Text} {list : Allowlist}
    (h : compile patterns = .ok list)
    (ha : ∀ pattern ∈ patterns, starsApart 0 (pieces pattern).1 = true) (path : Text) :
    ((Policy.allowlist list).captures path = [path] ↔
        path ≠ [] ∧ ∃ pattern ∈ patterns, Matches pattern (Utf8.encode path) ∧
          ¬ (DecidedByName pattern ∧ endsInParent (Utf8.encode path) = true)) ∧
      ((Policy.allowlist list).captures path = [] ↔
        ¬ (path ≠ [] ∧ ∃ pattern ∈ patterns, Matches pattern (Utf8.encode path) ∧
          ¬ (DecidedByName pattern ∧ endsInParent (Utf8.encode path) = true))) := by
  have hone : ∀ pattern ∈ patterns, ((∃ ts, parse pattern = .ok ts ∧
      Glob.accepts ts (Utf8.encode path) = true) ↔ Matches pattern (Utf8.encode path) ∧
        ¬ (DecidedByName pattern ∧ endsInParent (Utf8.encode path) = true)) := by
    intro pattern hp
    obtain ⟨g, -, hg⟩ := Except.exists_right (parseAll_ok.mp (compile_ok h)) hp
    have hparse := (parseOne_ok.mp hg).2
    rw [← accepts_iff_matches hparse (ha pattern hp)]
    constructor
    · rintro ⟨ts, hts, hacc⟩
      obtain rfl := Except.ok.inj (hparse.symm.trans hts)
      exact hacc
    · exact fun hacc => ⟨g.tokens, hparse, hacc⟩
  have hacc : list.accepts path = true ↔
      path ≠ [] ∧ ∃ pattern ∈ patterns, Matches pattern (Utf8.encode path) ∧
        ¬ (DecidedByName pattern ∧ endsInParent (Utf8.encode path) = true) := by
    rw [accepts_iff_exists h]
    refine and_congr_right fun _ => exists_congr fun pattern => and_congr_right fun hp => ?_
    exact hone pattern hp
  rw [← hacc, Policy.captures, Policy.accepts]
  cases list.accepts path <;> simp

theorem captures_iff_matches_alternates :
    (compile ["a\x7b,b\x7d".toList, "**/**/x".toList] =
        .ok ⟨[⟨"a\x7b,b\x7d".toList, [.literal 'a', .choice [[], [.literal 'b']]]⟩,
          ⟨"**/**/x".toList, [.dirsBefore, .literal 'x']⟩]⟩ ∧
      ∀ pattern ∈ ["a\x7b,b\x7d".toList, "**/**/x".toList],
        starsApart 0 (pieces pattern).1 = true) ∧
    ((Policy.allowlist ⟨[⟨"a\x7b,b\x7d".toList, [.literal 'a', .choice [[], [.literal 'b']]]⟩,
          ⟨"**/**/x".toList, [.dirsBefore, .literal 'x']⟩]⟩).captures "ab".toList =
        ["ab".toList] ↔
      "ab".toList ≠ [] ∧ ∃ pattern ∈ ["a\x7b,b\x7d".toList, "**/**/x".toList],
        Matches pattern (Utf8.encode "ab".toList) ∧
          ¬ (DecidedByName pattern ∧ endsInParent (Utf8.encode "ab".toList) = true)) :=
  ⟨⟨by rfl, by decide⟩, (captures_iff_matches (by rfl) (by decide) "ab".toList).1⟩

example : (parse "**/.[.]".toList).toOption.map (Glob.accepts · (Utf8.encode "..".toList)) =
    some true := by cbv

-- A star and a dot cover the path `..`, which has no extension and is refused.
theorem not_captures_iff_matches :
    ¬ ∀ (patterns : List Text) (list : Allowlist) (path : Text), compile patterns = .ok list →
      (∀ pattern ∈ patterns, starsApart 0 (pieces pattern).1 = true) →
      ((Policy.allowlist list).captures path = [path] ↔
        path ≠ [] ∧ ∃ pattern ∈ patterns, Matches pattern (Utf8.encode path)) := by
  intro h
  have hc : compile [['*', '.']] = .ok ⟨[⟨['*', '.'], [.anyRun, .literal '.']⟩]⟩ := by rfl
  have hm : Matches ['*', '.'] (Utf8.encode ['.', '.']) := by
    refine ⟨[Glob.star, .letter (.plain '.')], ?_, rfl, Or.inl ?_⟩
    · rw [List.forall_mem_cons, List.forall_mem_singleton]
      exact ⟨.letter (.plain (by decide) (by decide)) (by simp) (by simp) (by simp),
        .letter (.plain (by decide) (by decide)) (by simp) (by simp) (by simp)⟩
    · have hd : ¬ StartsDirs [Glob.star, .letter (.plain '.')] := by simp [StartsDirs, Glob.star]
      have hdot : Covers false [.letter (.plain '.')] (String.utf8EncodeChar '.' ++ []) :=
        .node (by simp) (.letter (.char (by decide) (by decide))) .nil
      exact .node (fun hf => hd hf.2) (.letter (.anyRun [Path.dot])) hdot
  have hn : (Policy.allowlist ⟨[⟨['*', '.'], [.anyRun, .literal '.']⟩]⟩).captures ['.', '.'] =
      [] := by decide
  have hcap := (h [['*', '.']] _ ['.', '.'] hc (by decide)).mpr
    ⟨by decide, ['*', '.'], List.mem_singleton_self _, hm⟩
  rw [hn] at hcap
  cases hcap

end Allowlist

end PathSieve
