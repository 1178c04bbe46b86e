import PathSieve.Proofs.Glob.Depth
import PathSieve.Proofs.Glob.Literal
import PathSieve.Proofs.Policy.Compile

namespace PathSieve

namespace Utf8

lemma encode_prefix_iff {w path : Text} : encode w <+: encode path ↔ w <+: path := by
  constructor
  · rintro ⟨rest, h⟩
    have hscan : w.map some ++ scan rest = path.map some := by
      rw [← scan_encode_append, h, ← List.append_nil (encode path), scan_encode_append, scan_nil,
        List.append_nil]
    obtain ⟨front, back, rfl, hfront, -⟩ := List.append_eq_map_iff.mp hscan
    obtain rfl : front = w := (List.map_injective_iff.mpr (Option.some_injective Char)) hfront
    exact List.prefix_append front back
  · rintro ⟨rest, rfl⟩
    exact ⟨encode rest, by simp [encode]⟩

end Utf8

namespace Glob

lemma parse_literal {w : Text} (h : IsLiteral w) : parse w = .ok (literals w) := by
  have hp := parse_standing h.standing
  rwa [text_plain] at hp

lemma parse_append_star {w : Text} (h : IsLiteral w) :
    parse (w ++ ['*']) = .ok (literals w ++ [.anyRun]) := by
  have hp : pieces (w ++ ['*']) = (w.map .plain ++ [.plain '*'], none) := by
    rw [pieces_plain, List.map_append]
    · rfl
    · rw [List.forall_mem_append, List.forall_mem_singleton]
      exact ⟨h.isPlain, by decide⟩
  rw [parse_eq, hp, build_literal h (by simp)]
  have hstar : ∀ prev ts, build none prev [] ts [.plain '*'] =
      build none (some '*') [] (.anyRun :: ts) [] := fun prev ts =>
    build_letter (l := .plain '*') (by simp) (by simp) (by simp) (by simp)
  rw [hstar, build_nil]
  simp

lemma accepts_literals {w : Text} {path : Bytes} :
    accepts (literals w) path = true ↔ path = Utf8.encode w := by
  have hne : literals w ≠ [.dirsBefore] := by cases w <;> simp [literals]
  rw [accepts_iff, Accepted, or_iff_right hne, language_literals, Method.isByName_literals]
  simp only [Bool.false_eq_true, false_and, not_false_eq_true, and_true]
  rfl

lemma accepts_append_star {w : Text} {path : Bytes} :
    accepts (literals w ++ [.anyRun]) path = true ↔ Utf8.encode w <+: path := by
  have hne : literals w ++ [.anyRun] ≠ [.dirsBefore] := by cases w <;> simp [literals]
  have hstar : language [.anyRun] = ⊤ := by
    rw [language_cons, language_nil, mul_one, Token.language]
  rw [accepts_iff, Accepted, or_iff_right hne, language_append, language_literals, hstar,
    Method.isByName_append_star, Language.mem_mul]
  simp only [Bool.false_eq_true, false_and, not_false_eq_true, and_true]
  constructor
  · rintro ⟨_, rfl, rest, -, rfl⟩
    exact List.prefix_append _ rest
  · rintro ⟨rest, rfl⟩
    exact ⟨_, rfl, rest, trivial, rfl⟩

lemma depth_literals_le (w : Text) : depth (literals w) ≤ depthLimit :=
  depth_le_of_notMem (choice_notMem_literals w)

end Glob

namespace Allowlist

open Glob

def IsSimple (p : Text) : Prop := ∃ w, IsLiteral w ∧ (p = w ∨ p = w ++ ['*'])

lemma exists_compile_of_isSimple {patterns : List Text} (h : ∀ p ∈ patterns, IsSimple p) :
    (∃ list, compile patterns = .ok list) ↔ FitsLimit patterns := by
  refine exists_compile_iff.trans (and_iff_right fun p hp => ?_)
  obtain ⟨w, hw, rfl | rfl⟩ := h p hp
  · exact exists_parseOne_of_depth (parse_literal hw) (depth_literals_le p)
  · exact exists_parseOne_of_depth (parse_append_star hw)
      (depth_le_of_notMem (by simp [choice_notMem_literals]))

lemma not_isHandedOn_literals {g : Pattern} {w : Text} (hw : w ≠ []) (h : g.tokens = literals w) :
    ¬ IsHandedOn g := by
  rw [IsHandedOn, Pattern.method, h, Method.ofTokens_literals hw]
  simp [Method.needsExtension]

lemma not_isHandedOn_append_star {g : Pattern} {w : Text} (hw : w ≠ [])
    (h : g.tokens = literals w ++ [.anyRun]) : ¬ IsHandedOn g := by
  rw [IsHandedOn, Pattern.method, h, Method.ofTokens_append_star hw]
  simp [Method.needsExtension]

lemma fitsLimit_of_isSimple {patterns : List Text} (h : ∀ p ∈ patterns, IsSimple p)
    (hnil : [] ∉ patterns) (hstar : ['*'] ∉ patterns) : FitsLimit patterns := by
  refine fitsLimit_of_not_isHandedOn fun p hp g hg => ?_
  obtain ⟨w, hw, rfl | rfl⟩ := h p hp
  · have hne : p ≠ [] := fun he => hnil (he ▸ hp)
    exact not_isHandedOn_literals hne
      (Except.ok.inj ((parseOne_ok.mp hg).2.symm.trans (parse_literal hw)))
  · have hne : w ≠ [] := by
      rintro rfl
      exact hstar hp
    exact not_isHandedOn_append_star hne
      (Except.ok.inj ((parseOne_ok.mp hg).2.symm.trans (parse_append_star hw)))

lemma accepts_iff_of_isSimple {patterns : List Text} (h : ∀ p ∈ patterns, IsSimple p)
    {list : Allowlist} (hlist : compile patterns = .ok list) (path : Text) :
    list.accepts path = true ↔ path ≠ [] ∧ ∃ w, IsLiteral w ∧
      (w ∈ patterns ∧ path = w ∨ w ++ ['*'] ∈ patterns ∧ w <+: path) := by
  rw [accepts_iff_exists hlist]
  refine and_congr_right fun _ => ?_
  constructor
  · rintro ⟨p, hp, ts, hparse, hacc⟩
    obtain ⟨w, hw, rfl | rfl⟩ := h p hp
    · obtain rfl := Except.ok.inj ((parse_literal hw).symm.trans hparse)
      exact ⟨p, hw, Or.inl ⟨hp, Utf8.encode_injective (accepts_literals.mp hacc)⟩⟩
    · obtain rfl := Except.ok.inj ((parse_append_star hw).symm.trans hparse)
      exact ⟨w, hw, Or.inr ⟨hp, Utf8.encode_prefix_iff.mp (accepts_append_star.mp hacc)⟩⟩
  · rintro ⟨w, hw, ⟨hp, rfl⟩ | ⟨hp, hpre⟩⟩
    · exact ⟨path, hp, _, parse_literal hw, accepts_literals.mpr rfl⟩
    · exact ⟨_, hp, _, parse_append_star hw,
        accepts_append_star.mpr (Utf8.encode_prefix_iff.mpr hpre)⟩

def defaultPrefixes : List Text :=
  ["deploy/", "hack/", "integration_test/", "internal/", "packages/", "pkg/", "rpm-prefetching/",
    "Dockerfile."].map String.toList

def defaultNames : List Text :=
  ["Makefile", "go.mod", "go.sum", ".dockerignore", "build_deploy.sh", "main.go",
    "renovate.json"].map String.toList

lemma defaultPatterns_eq : defaultPatterns = defaultPrefixes.map (· ++ ['*']) ++ defaultNames := by
  rfl

lemma isLiteral_defaults : ∀ w ∈ defaultPrefixes ++ defaultNames, IsLiteral w := by decide

lemma isSimple_defaults : ∀ p ∈ defaultPatterns, IsSimple p := by
  intro p hp
  rw [defaultPatterns_eq, List.mem_append, List.mem_map] at hp
  obtain ⟨w, hw, rfl⟩ | hw := hp
  · exact ⟨w, isLiteral_defaults w (List.mem_append_left _ hw), Or.inr rfl⟩
  · exact ⟨p, isLiteral_defaults p (List.mem_append_right _ hw), Or.inl rfl⟩

lemma not_isLiteral_append_star (w : Text) : ¬ IsLiteral (w ++ ['*']) := fun h =>
  h '*' (by simp) (by decide)

lemma mem_defaultPatterns {w : Text} (h : IsLiteral w) :
    w ∈ defaultPatterns ↔ w ∈ defaultNames := by
  rw [defaultPatterns_eq, List.mem_append, List.mem_map]
  refine or_iff_right ?_
  rintro ⟨v, -, rfl⟩
  exact not_isLiteral_append_star v h

lemma append_star_mem_defaultPatterns {w : Text} :
    w ++ ['*'] ∈ defaultPatterns ↔ w ∈ defaultPrefixes := by
  rw [defaultPatterns_eq, List.mem_append, List.mem_map]
  have hnot : w ++ ['*'] ∉ defaultNames := fun h =>
    not_isLiteral_append_star w (isLiteral_defaults _ (List.mem_append_right _ h))
  simp [hnot]

lemma captures_of_isSimple {patterns : List Text} (h : ∀ p ∈ patterns, IsSimple p)
    {list : Allowlist} (hlist : compile patterns = .ok list) (path : Text) :
    (Policy.allowlist list).captures path = [path] ↔ path ≠ [] ∧ ∃ w, IsLiteral w ∧
      (w ∈ patterns ∧ path = w ∨ w ++ ['*'] ∈ patterns ∧ w <+: path) := by
  rw [captures_eq_iff, accepts_iff_of_isSimple h hlist]

/-- A list of literals, with or without a star behind them, allows the paths that equal one of them
or start with one that has a star. The default patterns are such a list. -/
theorem captures_iff_prefix :
    (∀ patterns : List Text, (∀ p ∈ patterns, IsSimple p) →
      ((∃ list, compile patterns = .ok list) ↔ FitsLimit patterns) ∧
      ([] ∉ patterns → ['*'] ∉ patterns → FitsLimit patterns) ∧
      ∀ list, compile patterns = .ok list → ∀ path,
        ((Policy.allowlist list).captures path = [path] ↔ path ≠ [] ∧ ∃ w, IsLiteral w ∧
          (w ∈ patterns ∧ path = w ∨ w ++ ['*'] ∈ patterns ∧ w <+: path))) ∧
    ∀ settings : Settings, settings.patterns = none →
      ∃ policy, Policy.build settings .allowlist = .ok policy ∧ ∀ path,
        (policy.captures path = [path] ↔
          (∃ w ∈ defaultPrefixes, w <+: path) ∨ path ∈ defaultNames) := by
  refine ⟨fun patterns h => ⟨exists_compile_of_isSimple h, fitsLimit_of_isSimple h,
    fun list => captures_of_isSimple h⟩, fun settings hs => ?_⟩
  obtain ⟨list, hlist⟩ := (exists_compile_of_isSimple isSimple_defaults).mpr
    (fitsLimit_of_isSimple isSimple_defaults (by decide) (by decide))
  refine ⟨.allowlist list, ?_, fun path => ?_⟩
  · rw [Policy.build, hs, Option.getD_none, hlist]
    rfl
  rw [captures_of_isSimple isSimple_defaults hlist]
  constructor
  · rintro ⟨-, w, hw, ⟨hmem, rfl⟩ | ⟨hmem, hpre⟩⟩
    · exact Or.inr ((mem_defaultPatterns hw).mp hmem)
    · exact Or.inl ⟨w, append_star_mem_defaultPatterns.mp hmem, hpre⟩
  · rintro (⟨w, hmem, hpre⟩ | hmem)
    · refine ⟨?_, w, isLiteral_defaults w (List.mem_append_left _ hmem),
        Or.inr ⟨append_star_mem_defaultPatterns.mpr hmem, hpre⟩⟩
      rintro rfl
      rw [List.prefix_nil] at hpre
      subst hpre
      exact absurd hmem (by decide)
    · have hw := isLiteral_defaults path (List.mem_append_right _ hmem)
      refine ⟨?_, path, hw, Or.inl ⟨(mem_defaultPatterns hw).mpr hmem, rfl⟩⟩
      rintro rfl
      exact absurd hmem (by decide)

theorem captures_iff_prefix_sample :
    ((∀ p ∈ ["docs/*".toList, "a,b]".toList, "*".toList], IsSimple p) ∧
      ∃ list, compile ["docs/*".toList, "a,b]".toList, "*".toList] = .ok list ∧ ∀ path,
        ((Policy.allowlist list).captures path = [path] ↔ path ≠ [] ∧ ∃ w, IsLiteral w ∧
          (w ∈ ["docs/*".toList, "a,b]".toList, "*".toList] ∧ path = w ∨
            w ++ ['*'] ∈ ["docs/*".toList, "a,b]".toList, "*".toList] ∧ w <+: path))) ∧
    ∃ policy, Policy.build ⟨none, none, none, none, none⟩ .allowlist = .ok policy ∧ ∀ path,
      (policy.captures path = [path] ↔
        (∃ w ∈ defaultPrefixes, w <+: path) ∨ path ∈ defaultNames) := by
  have h : ∀ p ∈ ["docs/*".toList, "a,b]".toList, "*".toList], IsSimple p := by
    rw [List.forall_mem_cons, List.forall_mem_cons, List.forall_mem_singleton]
    exact ⟨⟨"docs/".toList, by decide, Or.inr (by decide)⟩,
      ⟨"a,b]".toList, by decide, Or.inl rfl⟩, ⟨[], by decide, Or.inr rfl⟩⟩
  obtain ⟨hcompile, -, hcaptures⟩ := captures_iff_prefix.1 _ h
  obtain ⟨list, hlist⟩ := hcompile.mpr (by decide)
  exact ⟨⟨h, list, hlist, hcaptures list hlist⟩, captures_iff_prefix.2 _ rfl⟩

-- A star alone is a regular expression, and so many of them have no room.
theorem not_captures_iff_prefix :
    ¬ ∀ patterns : List Text, (∀ p ∈ patterns, IsSimple p) →
      ∃ list, compile patterns = .ok list := by
  intro h
  have hsimple : ∀ p ∈ List.replicate 100000 ['*'], IsSimple p := by
    intro p hp
    exact ⟨[], by simp [IsLiteral], Or.inr (List.eq_of_mem_replicate hp)⟩
  have hglobs : ((List.replicate 100000 ['*']).filterMap fun p => (parseOne p).toOption) =
      List.replicate 100000 ⟨['*'], [.anyRun]⟩ :=
    List.filterMap_replicate_of_some rfl
  have hexpression : ∀ g ∈ List.replicate 100000 (⟨['*'], [.anyRun]⟩ : Pattern),
      g.method = .expression := by
    intro g hg
    obtain rfl := List.eq_of_mem_replicate hg
    rfl
  refine not_fitsLimit hglobs hexpression ?_ ((exists_compile_of_isSimple hsimple).mp (h _ hsimple))
  rw [List.map_replicate, List.sum_replicate]
  decide

theorem captures_escape {escapes : Char → Bool} (h : ∀ c ∈ special, escapes c = true) {s : Text}
    (hs : s ≠ []) :
    ∃ list, compile [escape escapes s] = .ok list ∧
      ∀ path, (Policy.allowlist list).captures path = if path = s then [path] else [] := by
  have hparse := parse_escape h s
  have hfits : FitsLimit [escape escapes s] := by
    refine fitsLimit_of_not_isHandedOn (List.forall_mem_singleton.mpr fun g hg => ?_)
    exact not_isHandedOn_literals hs
      (Except.ok.inj ((parseOne_ok.mp hg).2.symm.trans hparse))
  obtain ⟨list, hlist⟩ := exists_compile_one.mpr
    ⟨exists_parseOne_of_depth hparse (depth_literals_le s), hfits⟩
  refine ⟨list, hlist, fun path => ?_⟩
  have haccepts : list.accepts path = true ↔ path = s := by
    rw [accepts_iff_exists hlist]
    constructor
    · rintro ⟨-, pattern, hpattern, ts, hts, hacc⟩
      obtain rfl := List.mem_singleton.mp hpattern
      obtain rfl := Except.ok.inj (hparse.symm.trans hts)
      exact Utf8.encode_injective (accepts_literals.mp hacc)
    · rintro rfl
      exact ⟨hs, _, List.mem_singleton_self _, _, hparse, accepts_literals.mpr rfl⟩
  rw [Policy.captures, Policy.accepts]
  simp only [haccepts]

theorem captures_escape_marked :
    (∀ c ∈ special, (fun _ : Char => true) c = true) ∧
      (∀ c ∈ special, decide (c ∈ special) = true) ∧ "**/\x7b[é,".toList ≠ [] ∧
      (∃ list, compile ["\\*\\*\\/\\\x7b\\[\\é\\,".toList] = .ok list ∧
        ∀ path, (Policy.allowlist list).captures path =
          if path = "**/\x7b[é,".toList then [path] else []) ∧
      ∃ list, compile ["\\*\\*/\\\x7b\\[é,".toList] = .ok list ∧
        ∀ path, (Policy.allowlist list).captures path =
          if path = "**/\x7b[é,".toList then [path] else [] :=
  ⟨fun _ _ => rfl, fun _ hc => decide_eq_true hc, by decide,
    @captures_escape (fun _ => true) (fun _ _ => rfl) "**/\x7b[é,".toList (by decide),
    @captures_escape (· ∈ special) (fun _ hc => decide_eq_true hc) "**/\x7b[é,".toList
      (by decide)⟩

end Allowlist

end PathSieve
