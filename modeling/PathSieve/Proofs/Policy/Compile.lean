import PathSieve.Proofs.Glob.Reading
import PathSieve.Proofs.Glob.Weight
import PathSieve.Proofs.Policy.Allowlist

/-! Compiling a list of patterns. Each pattern is compiled as if it stood alone, and the first one
that fails gives the error of the list. -/

namespace PathSieve.Allowlist

open Glob

def IsHandedOn (g : Pattern) : Prop :=
  g.method.needsExtension = true ∨ g.method = .nameExpression ∨ g.method = .expression

def IsRefused (g : Pattern) : Prop := isTooDeep g = true ∧ IsHandedOn g

def NestsTooDeep (source : Text) : Prop := ∃ g, parseOne source = .ok g ∧ IsRefused g

lemma not_nestsTooDeep {source : Text} {g : Pattern} (h : parseOne source = .ok g)
    (hg : isTooDeep g = false) : ¬ NestsTooDeep source := by
  rintro ⟨g', hg', hdeep, -⟩
  obtain rfl := Except.ok.inj (h.symm.trans hg')
  simp [hg] at hdeep

lemma not_nestsTooDeep_of_error {source : Text} {e : PatternError}
    (h : parseOne source = .error e) : ¬ NestsTooDeep source := by
  rintro ⟨g, hg, -⟩
  cases h.symm.trans hg

def automata (globs : List Pattern) : List (List Pattern) :=
  (globs.filter (·.method.needsExtension)).map ([·]) ++
    [globs.filter (·.method == .nameExpression), globs.filter (·.method == .expression)]

/-- There is room for the automata of the patterns that are well-formed. -/
def FitsLimit (patterns : List Text) : Prop :=
  ∀ set ∈ automata (patterns.filterMap fun p => (parseOne p).toOption), isTooLarge set = false

instance (patterns : List Text) : Decidable (FitsLimit patterns) :=
  inferInstanceAs (Decidable (∀ set ∈ _, isTooLarge set = false))

lemma fitsLimit_of_not_isHandedOn {patterns : List Text}
    (h : ∀ p ∈ patterns, ∀ g, parseOne p = .ok g → ¬ IsHandedOn g) : FitsLimit patterns := by
  have hglobs : ∀ g ∈ patterns.filterMap fun p => (parseOne p).toOption, ¬ IsHandedOn g := by
    intro g hg
    obtain ⟨p, hp, hpg⟩ := List.mem_filterMap.mp hg
    exact h p hp g (by cases hq : parseOne p <;> simp_all [Except.toOption])
  have hnone {q : Pattern → Bool} (hq : ∀ g, q g = true → IsHandedOn g) :
      (patterns.filterMap fun p => (parseOne p).toOption).filter q = [] :=
    List.filter_eq_nil_iff.mpr fun g hg hqg => hglobs g hg (hq g hqg)
  rw [FitsLimit, automata, hnone fun g hg => Or.inl hg,
    hnone fun g hg => Or.inr (Or.inl (beq_iff_eq.mp hg)),
    hnone fun g hg => Or.inr (Or.inr (beq_iff_eq.mp hg))]
  simp [isTooLarge, isTooLarge_nil]

lemma not_fitsLimit {patterns : List Text} {globs : List Pattern}
    (hglobs : (patterns.filterMap fun p => (parseOne p).toOption) = globs)
    (h : ∀ g ∈ globs, g.method = .expression)
    (hsize : sizeLimit < (globs.map fun g => size g.tokens).sum) : ¬ FitsLimit patterns := by
  intro hfits
  have hkept : globs.filter (·.method == .expression) = globs :=
    List.filter_eq_self.mpr fun g hg => beq_iff_eq.mpr (h g hg)
  rw [FitsLimit, hglobs, automata, hkept] at hfits
  have hroom := hfits globs (by simp)
  rw [isTooLarge, Glob.isTooLarge, decide_eq_false_iff_not, Nat.not_lt] at hroom
  have hsum := (sum_size_le_setSize _).trans hroom
  rw [List.map_map] at hsum
  exact absurd hsize (Nat.not_lt.mpr hsum)

section Limits

variable {globs : List Pattern}

lemma singleError?_eq_none {g : Pattern} :
    singleError? g = none ↔ isTooDeep g = false ∧ isTooLarge [g] = false := by
  rw [singleError?]
  cases isTooDeep g <;> cases isTooLarge [g] <;> simp

lemma setError?_eq_none :
    setError? globs = none ↔ (∀ g ∈ globs, isTooDeep g = false) ∧ isTooLarge globs = false := by
  rw [setError?, ← List.findIdx?_eq_none_iff]
  cases globs.findIdx? isTooDeep <;> cases isTooLarge globs <;> simp

lemma limitError?_eq_none :
    limitError? globs = none ↔
      (∀ g ∈ globs, ¬ IsRefused g) ∧ ∀ set ∈ automata globs, isTooLarge set = false := by
  rw [limitError?, Option.orElse_eq_none, Option.orElse_eq_none, List.findSome?_eq_none_iff,
    setError?_eq_none, setError?_eq_none, automata, List.forall_mem_append, List.forall_mem_map,
    List.forall_mem_cons, List.forall_mem_singleton]
  simp only [singleError?_eq_none, List.mem_filter, beq_iff_eq, and_imp]
  constructor
  · rintro ⟨hsingle, ⟨hname, hnames⟩, hrest, hrests⟩
    refine ⟨?_, fun g hg hm => (hsingle g hg hm).2, hnames, hrests⟩
    rintro g hg ⟨hdeep, hm | hm | hm⟩
    · exact Bool.false_ne_true ((hsingle g hg hm).1.symm.trans hdeep)
    · exact Bool.false_ne_true ((hname g hg hm).symm.trans hdeep)
    · exact Bool.false_ne_true ((hrest g hg hm).symm.trans hdeep)
  · rintro ⟨hrefused, hsingle, hnames, hrests⟩
    have hdepth : ∀ g ∈ globs, IsHandedOn g → isTooDeep g = false := fun g hg hm =>
      Bool.eq_false_iff.mpr fun hdeep => hrefused g hg ⟨hdeep, hm⟩
    exact ⟨fun g hg hm => ⟨hdepth g hg (Or.inl hm), hsingle g hg hm⟩,
      ⟨fun g hg hm => hdepth g hg (Or.inr (Or.inl hm)), hnames⟩,
      fun g hg hm => hdepth g hg (Or.inr (Or.inr hm)), hrests⟩

end Limits

lemma compile_eq (patterns : List Text) :
    compile patterns = parseAll patterns >>= fun globs =>
      match limitError? globs with
      | some e => .error e
      | none => .ok ⟨globs⟩ := rfl

lemma filterMap_parseOne {patterns : List Text} {globs : List Pattern}
    (h : parseAll patterns = .ok globs) :
    (patterns.filterMap fun p => (parseOne p).toOption) = globs := by
  have hf := parseAll_ok.mp h
  clear h
  induction hf with
  | nil => rfl
  | cons hp _ ih =>
    rw [List.filterMap_cons_some (by rw [hp]; rfl), ih]

lemma compile_ok_iff {patterns : List Text} {list : Allowlist} :
    compile patterns = .ok list ↔ parseAll patterns = .ok list.globs ∧
      (∀ g ∈ list.globs, ¬ IsRefused g) ∧ FitsLimit patterns := by
  rw [compile_eq, Except.bind_ok]
  constructor
  · rintro ⟨globs, hp, h⟩
    cases hl : limitError? globs with
    | some e => simp [hl] at h
    | none =>
      rw [hl] at h
      cases h
      obtain ⟨hdepth, hroom⟩ := limitError?_eq_none.mp hl
      exact ⟨hp, hdepth, by rwa [FitsLimit, filterMap_parseOne hp]⟩
  · rintro ⟨hp, hdepth, hroom⟩
    rw [FitsLimit, filterMap_parseOne hp] at hroom
    exact ⟨list.globs, hp, by rw [limitError?_eq_none.mpr ⟨hdepth, hroom⟩]⟩

lemma exists_compile_iff {patterns : List Text} :
    (∃ list, compile patterns = .ok list) ↔
      (∀ p ∈ patterns, ∃ g, parseOne p = .ok g ∧ ¬ IsRefused g) ∧ FitsLimit patterns := by
  constructor
  · rintro ⟨list, h⟩
    obtain ⟨hparse, hd, hroom⟩ := compile_ok_iff.mp h
    refine ⟨fun p hp => ?_, hroom⟩
    obtain ⟨g, hg, hpg⟩ := Except.exists_right (parseAll_ok.mp hparse) hp
    exact ⟨g, hpg, hd g hg⟩
  · rintro ⟨h, hroom⟩
    cases hparse : parseAll patterns with
    | error e =>
      obtain ⟨before, p, after, rfl, -, hp⟩ := Except.mapM_error.mp hparse
      obtain ⟨g, hg, -⟩ := h p (by simp)
      exact absurd (hg.symm.trans hp) (by simp)
    | ok globs =>
      refine ⟨⟨globs⟩, compile_ok_iff.mpr ⟨hparse, fun g hg => ?_, hroom⟩⟩
      obtain ⟨p, hp, hpg⟩ := Except.exists_left (parseAll_ok.mp hparse) hg
      obtain ⟨g', hg', hd⟩ := h p hp
      obtain rfl := Except.ok.inj (hpg.symm.trans hg')
      exact hd

lemma exists_compile_one {p : Text} :
    (∃ list, compile [p] = .ok list) ↔
      (∃ g, parseOne p = .ok g ∧ ¬ IsRefused g) ∧ FitsLimit [p] := by
  rw [exists_compile_iff, List.forall_mem_singleton]

-- Fewer patterns need less room.
lemma FitsLimit.of_sublist {patterns fewer : List Text} (h : FitsLimit patterns)
    (hfewer : fewer.Sublist patterns) : FitsLimit fewer := by
  have hglobs := hfewer.filterMap fun p => (parseOne p).toOption
  rw [FitsLimit, automata, List.forall_mem_append, List.forall_mem_map, List.forall_mem_cons,
    List.forall_mem_singleton] at h ⊢
  refine ⟨fun g hg => h.1 g ((hglobs.filter _).subset hg), ?_, ?_⟩
  · exact isTooLarge_of_sublist ((hglobs.filter _).map _) h.2.1
  · exact isTooLarge_of_sublist ((hglobs.filter _).map _) h.2.2

lemma FitsLimit.of_mem {patterns : List Text} (h : FitsLimit patterns) {p : Text}
    (hp : p ∈ patterns) : FitsLimit [p] :=
  h.of_sublist (List.singleton_sublist.mpr hp)

structure WithinLimits (patterns : List Text) : Prop where
  depth : ∀ p ∈ patterns, ¬ NestsTooDeep p
  size : FitsLimit patterns

lemma WithinLimits.of_mem {patterns : List Text} (h : WithinLimits patterns) {p : Text}
    (hp : p ∈ patterns) : WithinLimits [p] :=
  ⟨List.forall_mem_singleton.mpr (h.depth p hp), h.size.of_mem hp⟩

lemma compile_error_iff {patterns : List Text} (h : WithinLimits patterns) {e : PatternError} :
    compile patterns = .error e ↔ parseAll patterns = .error e := by
  rw [compile_eq, Except.bind_error]
  refine or_iff_left ?_
  rintro ⟨globs, hp, he⟩
  have hroom := h.size
  rw [FitsLimit, filterMap_parseOne hp] at hroom
  have hlimits : limitError? globs = none := by
    refine limitError?_eq_none.mpr ⟨fun g hg hr => ?_, hroom⟩
    obtain ⟨p, hmem, hpg⟩ := Except.exists_left (parseAll_ok.mp hp) hg
    exact h.depth p hmem ⟨g, hpg, hr⟩
  simp [hlimits] at he

lemma compile_one_error {p : Text} (h : WithinLimits [p]) {e : PatternError} :
    compile [p] = .error e ↔ parseOne p = .error e := by
  rw [compile_error_iff h]
  have hp : parseAll [p] = (parseOne p).map ([·]) := by
    cases hp : parseOne p with
    | ok g => exact Except.mapM_ok.mpr (.cons hp .nil)
    | error e => exact Except.mapM_error.mpr ⟨[], p, [], rfl, by simp, hp⟩
  rw [hp, Except.map_error]

lemma exists_compile_of_parse {p : Text} (h : WithinLimits [p]) :
    (∃ list, compile [p] = .ok list) ↔ ∃ g, parseOne p = .ok g := by
  rw [exists_compile_one, and_iff_left h.size]
  refine exists_congr fun g => and_iff_left_of_imp ?_
  exact fun hg hr => h.depth p (List.mem_singleton_self p) ⟨g, hg, hr⟩

lemma exists_parseOne {p : Text} : (∃ g, parseOne p = .ok g) ↔ ∃ ts, parse p = .ok ts :=
  ⟨fun ⟨g, hg⟩ => ⟨g.tokens, (parseOne_ok.mp hg).2⟩,
    fun ⟨ts, h⟩ => ⟨⟨p, ts⟩, parseOne_ok.mpr ⟨rfl, h⟩⟩⟩

lemma not_nestsTooDeep_of_depth {p : Text} {ts : List Token} (h : parse p = .ok ts)
    (hd : depth ts ≤ depthLimit) : ¬ NestsTooDeep p := by
  have hg : parseOne p = .ok ⟨p, ts⟩ := parseOne_ok.mpr ⟨rfl, h⟩
  exact not_nestsTooDeep hg (decide_eq_false (Nat.not_lt.mpr hd))

lemma exists_parseOne_of_depth {p : Text} {ts : List Token} (h : parse p = .ok ts)
    (hd : depth ts ≤ depthLimit) : ∃ g, parseOne p = .ok g ∧ ¬ IsRefused g := by
  have hg : parseOne p = .ok ⟨p, ts⟩ := parseOne_ok.mpr ⟨rfl, h⟩
  exact ⟨_, hg, fun hr => not_nestsTooDeep_of_depth h hd ⟨_, hg, hr⟩⟩

lemma captures_eq_iff {list : Allowlist} {path : Text} :
    (Policy.allowlist list).captures path = [path] ↔ list.accepts path = true := by
  rw [Policy.captures, Policy.accepts]
  cases list.accepts path <;> simp

lemma parseOne_error {p : Text} {e : PatternError} :
    parseOne p = .error e ↔ ∃ why, parse p = .error why ∧ e = .malformed p why := by
  rw [parseOne]
  cases parse p with
  | ok ts => simp
  | error why => simp [eq_comm]

/-- The syntax of patterns: a pattern has one reading, and it fails to compile exactly when that
reading has a fault. -/
theorem compile_fails_iff_faulty {p : Text} (h : WithinLimits [p]) :
    ∃ r : Reading, (∀ r' : Reading, r'.Spells p ↔ r' = r) ∧
      ((∃ e, compile [p] = .error e) ↔ r.Faulty) ∧
      ((∃ list, compile [p] = .ok list) ↔ ¬ r.Faulty) ∧
      ∀ e, compile [p] = .error e → ∃ why, e = .malformed p why := by
  obtain ⟨r, hr⟩ := exists_reading p
  have hok : (∃ list, compile [p] = .ok list) ↔ ¬ r.Faulty := by
    rw [exists_compile_of_parse h, exists_parseOne, hr.parse_ok_iff]
  have herror : (∃ e, compile [p] = .error e) ↔ ¬ ∃ list, compile [p] = .ok list := by
    cases compile [p] <;> simp
  refine ⟨r, fun r' => ⟨fun hr' => hr'.unique hr, ?_⟩, ?_, hok, fun e he => ?_⟩
  · rintro rfl
    exact hr
  · rw [herror, hok, not_not]
  · obtain ⟨why, -, he⟩ := parseOne_error.mp ((compile_one_error h).mp he)
    exact ⟨why, he⟩

theorem compile_fails_iff_faulty_reversed : WithinLimits ["[b-a]".toList] ∧
    ∃ r : Reading, (∀ r' : Reading, r'.Spells "[b-a]".toList ↔ r' = r) ∧
      ((∃ e, compile ["[b-a]".toList] = .error e) ↔ r.Faulty) ∧
      ((∃ list, compile ["[b-a]".toList] = .ok list) ↔ ¬ r.Faulty) ∧
      ∀ e, compile ["[b-a]".toList] = .error e → ∃ why, e = .malformed "[b-a]".toList why :=
  have h : WithinLimits ["[b-a]".toList] :=
    ⟨List.forall_mem_singleton.mpr (not_nestsTooDeep_of_error (by rfl)), by decide⟩
  ⟨h, compile_fails_iff_faulty h⟩

/-- Patterns compile one by one: a list compiles when each of its patterns does, and otherwise has
the error of the first that does not; and a list accepts what one of its patterns accepts, whatever
their order and number. -/
theorem compile_each :
    (∀ patterns : List Text, FitsLimit patterns → ((∃ list, compile patterns = .ok list) ↔
      ∀ p ∈ patterns, ∃ list, compile [p] = .ok list)) ∧
    (∀ patterns : List Text, WithinLimits patterns → ∀ e,
      compile patterns = .error e ↔ ∃ before p after, patterns = before ++ p :: after ∧
        (∀ q ∈ before, ∃ list, compile [q] = .ok list) ∧ compile [p] = .error e) ∧
    (∀ (first second : List Text) (one two : Allowlist), compile first = .ok one →
      compile second = .ok two → FitsLimit (first ++ second) →
      ∃ both, compile (first ++ second) = .ok both ∧
        ∀ path, both.accepts path = true ↔ one.accepts path = true ∨ two.accepts path = true) ∧
    ∀ (patterns others : List Text) (list : Allowlist), compile patterns = .ok list →
      (∀ p, p ∈ others ↔ p ∈ patterns) → FitsLimit others →
      ∃ same, compile others = .ok same ∧ ∀ path, same.accepts path = list.accepts path := by
  have hlist : ∀ patterns : List Text, FitsLimit patterns → ((∃ list, compile patterns = .ok list) ↔
      ∀ p ∈ patterns, ∃ list, compile [p] = .ok list) := by
    intro patterns hfits
    rw [exists_compile_iff, and_iff_left hfits]
    refine forall₂_congr fun p hp => ?_
    rw [exists_compile_one, and_iff_left (hfits.of_mem hp)]
  have hone : ∀ {patterns : List Text} {list : Allowlist}, compile patterns = .ok list →
      ∀ p ∈ patterns, ∃ list, compile [p] = .ok list := fun h =>
    (hlist _ (compile_ok_iff.mp h).2.2).mp ⟨_, h⟩
  refine ⟨hlist, fun patterns h e => ?_, fun first second one two h1 h2 hfits => ?_,
    fun patterns others list h hsame hfits => ?_⟩
  · rw [compile_error_iff h]
    refine Except.mapM_error.trans (exists_congr fun before => exists_congr fun p =>
      exists_congr fun after => and_congr_right ?_)
    rintro rfl
    rw [compile_one_error (h.of_mem (by simp))]
    refine and_congr_left fun _ => forall₂_congr fun q hq => ?_
    exact (exists_compile_of_parse (h.of_mem (by simp [hq]))).symm
  · obtain ⟨both, hboth⟩ := (hlist (first ++ second) hfits).mpr fun p hp => by
      rcases List.mem_append.mp hp with hp | hp
      · exact hone h1 p hp
      · exact hone h2 p hp
    refine ⟨both, hboth, fun path => ?_⟩
    rw [accepts_iff_exists hboth, accepts_iff_exists h1, accepts_iff_exists h2, ← and_or_left]
    simp only [List.mem_append, or_and_right, exists_or]
  · obtain ⟨same, hs⟩ := (hlist others hfits).mpr fun p hp => hone h p ((hsame p).mp hp)
    refine ⟨same, hs, fun path => Bool.eq_iff_iff.mpr ?_⟩
    rw [accepts_iff_exists hs, accepts_iff_exists h]
    simp only [hsame]

theorem compile_each_pair :
    (WithinLimits ["a*".toList, "b[".toList, "\\".toList] ∧
      ∃ before p after, ["a*".toList, "b[".toList, "\\".toList] = before ++ p :: after ∧
        (∀ q ∈ before, ∃ list, compile [q] = .ok list) ∧
          compile [p] = .error (.malformed "b[".toList .unclosedClass)) ∧
    (FitsLimit (["a*".toList] ++ ["b".toList]) ∧
      ∃ both, compile (["a*".toList] ++ ["b".toList]) = .ok both ∧
      ∀ path, both.accepts path = true ↔
        Allowlist.accepts ⟨[⟨"a*".toList, [.literal 'a', .anyRun]⟩]⟩ path = true ∨
          Allowlist.accepts ⟨[⟨"b".toList, [.literal 'b']⟩]⟩ path = true) ∧
    FitsLimit ["b".toList, "a*".toList, "b".toList] ∧
      ∃ same, compile ["b".toList, "a*".toList, "b".toList] = .ok same ∧
      ∀ path, same.accepts path = Allowlist.accepts
        ⟨[⟨"a*".toList, [.literal 'a', .anyRun]⟩, ⟨"b".toList, [.literal 'b']⟩]⟩ path := by
  have hlimits : WithinLimits ["a*".toList, "b[".toList, "\\".toList] := by
    refine ⟨?_, by decide⟩
    rw [List.forall_mem_cons, List.forall_mem_cons, List.forall_mem_singleton]
    exact ⟨not_nestsTooDeep (g := ⟨"a*".toList, [.literal 'a', .anyRun]⟩) (by rfl) (by rfl),
      not_nestsTooDeep_of_error (by rfl), not_nestsTooDeep_of_error (by rfl)⟩
  have hfits : FitsLimit ["b".toList, "a*".toList, "b".toList] := by decide
  refine ⟨⟨hlimits, (compile_each.2.1 _ hlimits _).mp (by rfl)⟩, ⟨by decide, ?_⟩, hfits, ?_⟩
  · exact compile_each.2.2.1 ["a*".toList] ["b".toList] _ _ (by rfl) (by rfl) (by decide)
  · refine compile_each.2.2.2 ["a*".toList, "b".toList] _ _ (by rfl) (fun p => ?_) hfits
    simp only [List.mem_cons, List.not_mem_nil, or_false]
    tauto

end PathSieve.Allowlist
