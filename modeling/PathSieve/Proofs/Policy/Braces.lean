import PathSieve.Proofs.Glob.Braces
import PathSieve.Proofs.Policy.Compile

/-! Braces as an abbreviation. A pattern with braces around plain branches allows what the list of
patterns allows that have one of the branches each in place of the braces. -/

namespace PathSieve

namespace Glob

lemma exists_accepts_iff {pattern : Text} {ts : List Token} (h : parse pattern = .ok ts)
    (hts : ts ≠ [.dirsBefore]) (path : Bytes) :
    (∃ us, parse pattern = .ok us ∧ accepts us path = true) ↔
      path ∈ language ts ∧ ¬ (DecidedByName pattern ∧ endsInParent path = true) := by
  simp only [h, Except.ok.injEq, exists_eq_left', accepts_iff, Accepted, or_iff_right hts,
    decidedByName_iff h]

end Glob

namespace Allowlist

open Glob

def listed (p q : Text) (bs : List Text) : List Text := bs.map fun b => p ++ (b ++ q)

variable {p q : Text} {bs : List Text}

lemma accepts_one {pattern : Text} {one : Allowlist} (h : compile [pattern] = .ok one)
    {ts : List Token} (hparse : parse pattern = .ok ts) (hts : ts ≠ [.dirsBefore]) (path : Text) :
    one.accepts path = true ↔ path ≠ [] ∧ Utf8.encode path ∈ language ts ∧
      ¬ (DecidedByName pattern ∧ endsInParent (Utf8.encode path) = true) := by
  rw [accepts_iff_exists h, ← exists_accepts_iff hparse hts]
  simp

lemma accepts_listed {many : Allowlist} (h : compile (listed p q bs) = .ok many)
    (hbranch : ∀ b ∈ bs, IsBranch b) {us vs : List Token}
    (hparse : ∀ b ∈ bs, parse (p ++ (b ++ q)) = .ok (us ++ (literals b ++ vs))) (path : Text) :
    many.accepts path = true ↔ path ≠ [] ∧ ∃ b ∈ bs,
      Utf8.encode path ∈ language (us ++ (literals b ++ vs)) ∧
        ¬ (DecidedByName (p ++ (b ++ q)) ∧ endsInParent (Utf8.encode path) = true) := by
  rw [accepts_iff_exists h]
  simp only [listed, List.mem_map, exists_exists_and_eq_and]
  refine and_congr_right fun _ => exists_congr fun b => and_congr_right fun hb => ?_
  exact exists_accepts_iff (hparse b hb) ((hbranch b hb).isPart.ne_dirsBefore us vs) _

lemma accepts_braces {one many : Allowlist} (hone : compile [p ++ (braces bs ++ q)] = .ok one)
    (hmany : compile (listed p q bs) = .ok many) (hbs : bs ≠ []) (hbranch : ∀ b ∈ bs, IsBranch b)
    {us vs : List Token}
    (hparse : ∀ w ts, IsPart w ts → parse (p ++ (w ++ q)) = .ok (us ++ (ts ++ vs))) {path : Text}
    (halike : endsInParent (Utf8.encode path) = true → ∀ pattern ∈ listed p q bs,
      (DecidedByName pattern ↔ DecidedByName (p ++ (braces bs ++ q)))) :
    one.accepts path = many.accepts path := by
  have hpart := isPart_braces hbs hbranch
  rw [Bool.eq_iff_iff, accepts_one hone (hparse _ _ hpart) (hpart.ne_dirsBefore us vs),
    accepts_listed hmany hbranch fun b hb => hparse b _ (hbranch b hb).isPart]
  refine and_congr_right fun _ => ?_
  have hlang := mem_language_around hbs (fun b hb => (hbranch b hb).ne_nil) us vs
    (Utf8.encode path)
  have hname : ∀ b ∈ bs, (DecidedByName (p ++ (b ++ q)) ∧
      endsInParent (Utf8.encode path) = true ↔ DecidedByName (p ++ (braces bs ++ q)) ∧
        endsInParent (Utf8.encode path) = true) := fun b hb =>
    and_congr_left fun he => halike he _ (List.mem_map_of_mem hb)
  constructor
  · rintro ⟨hs, hn⟩
    obtain ⟨b, hb, hsb⟩ := hlang.mp hs
    exact ⟨b, hb, hsb, fun hnb => hn ((hname b hb).mp hnb)⟩
  · rintro ⟨b, hb, hsb, hnb⟩
    exact ⟨hlang.mpr ⟨b, hb, hsb⟩, fun hn => hnb ((hname b hb).mpr hn)⟩

/-- The two differ at most on a path that ends in the component `..`, and there only if not all of
the patterns are decided alike, by name or not. -/
theorem captures_braces (hp : ∃ list, compile [p] = .ok list) (hq : ∃ list, compile [q] = .ok list)
    (hbs : bs ≠ []) (hbranch : ∀ b ∈ bs, IsBranch b)
    (hone : WithinLimits [p ++ (braces bs ++ q)]) (hmany : WithinLimits (listed p q bs)) :
    ∃ one many, compile [p ++ (braces bs ++ q)] = .ok one ∧ compile (listed p q bs) = .ok many ∧
      (∀ pattern ∈ listed p q bs, ∃ alone, compile [pattern] = .ok alone) ∧
      ∀ path, (endsInParent (Utf8.encode path) = true → ∀ pattern ∈ listed p q bs,
          (DecidedByName pattern ↔ DecidedByName (p ++ (braces bs ++ q)))) →
        (Policy.allowlist one).captures path = (Policy.allowlist many).captures path := by
  obtain ⟨⟨gp, hgp, -⟩, -⟩ := exists_compile_one.mp hp
  obtain ⟨⟨gq, hgq, -⟩, -⟩ := exists_compile_one.mp hq
  obtain ⟨us, vs, hparse⟩ := exists_parse_around (exists_parseOne.mp ⟨gp, hgp⟩)
    (exists_parseOne.mp ⟨gq, hgq⟩)
  have hcompile : ∀ w ts, IsPart w ts → WithinLimits [p ++ (w ++ q)] →
      ∃ list, compile [p ++ (w ++ q)] = .ok list := fun w ts hw hlimits =>
    (exists_compile_of_parse hlimits).mpr (exists_parseOne.mpr ⟨_, hparse w ts hw⟩)
  obtain ⟨one, hone⟩ := hcompile _ _ (isPart_braces hbs hbranch) hone
  have halone : ∀ pattern ∈ listed p q bs, ∃ alone, compile [pattern] = .ok alone := by
    intro pattern hpattern
    obtain ⟨b, hb, rfl⟩ := List.mem_map.mp hpattern
    exact hcompile b _ (hbranch b hb).isPart (hmany.of_mem hpattern)
  obtain ⟨many, hmany⟩ := exists_compile_iff.mpr ⟨fun pattern hpattern =>
    (exists_compile_one.mp (halone pattern hpattern)).1, hmany.size⟩
  refine ⟨one, many, hone, hmany, halone, fun path halike => ?_⟩
  have hacc := accepts_braces hone hmany hbs hbranch hparse halike
  rw [Policy.captures, Policy.captures, Policy.accepts, Policy.accepts, hacc]

theorem captures_braces_nested :
    ((∃ list, compile ["\x7ba,b\x7d/".toList] = .ok list) ∧
      (∃ list, compile ["*".toList] = .ok list) ∧ ["c".toList, "d".toList] ≠ [] ∧
      (∀ b ∈ ["c".toList, "d".toList], IsBranch b) ∧
      WithinLimits
        ["\x7ba,b\x7d/".toList ++ (braces ["c".toList, "d".toList] ++ "*".toList)] ∧
      WithinLimits (listed "\x7ba,b\x7d/".toList "*".toList ["c".toList, "d".toList])) ∧
    ∃ one many,
      compile ["\x7ba,b\x7d/".toList ++ (braces ["c".toList, "d".toList] ++ "*".toList)] =
        .ok one ∧
      compile (listed "\x7ba,b\x7d/".toList "*".toList ["c".toList, "d".toList]) = .ok many ∧
      ∀ path, (Policy.allowlist one).captures path = (Policy.allowlist many).captures path := by
  have hp : ∃ list, compile ["\x7ba,b\x7d/".toList] = .ok list :=
    ⟨⟨[⟨"\x7ba,b\x7d/".toList, [.choice [[.literal 'a'], [.literal 'b']], .literal '/']⟩]⟩, by rfl⟩
  have hq : ∃ list, compile ["*".toList] = .ok list := ⟨⟨[⟨"*".toList, [.anyRun]⟩]⟩, by rfl⟩
  have hbranch : ∀ b ∈ ["c".toList, "d".toList], IsBranch b := by decide
  have hts : ∀ pattern ts, parse pattern = .ok ts → depth ts ≤ depthLimit →
      (Method.ofTokens ts).isByName = false → ¬ NestsTooDeep pattern ∧ ¬ DecidedByName pattern := by
    intro pattern ts hparse hd hn
    exact ⟨not_nestsTooDeep_of_depth hparse hd, by simp [decidedByName_iff hparse, hn]⟩
  have hone := hts ("\x7ba,b\x7d/".toList ++ (braces ["c".toList, "d".toList] ++ "*".toList))
    [.choice [[.literal 'a'], [.literal 'b']], .literal '/',
      .choice [[.literal 'c'], [.literal 'd']], .anyRun] (by rfl) (by decide) (by rfl)
  have hmany : ∀ pattern ∈ listed "\x7ba,b\x7d/".toList "*".toList ["c".toList, "d".toList],
      ¬ NestsTooDeep pattern ∧ ¬ DecidedByName pattern := by
    rw [listed, List.map_cons, List.map_singleton, List.forall_mem_cons, List.forall_mem_singleton]
    exact ⟨
      hts _ [.choice [[.literal 'a'], [.literal 'b']], .literal '/', .literal 'c', .anyRun]
        (by rfl) (by decide) (by rfl),
      hts _ [.choice [[.literal 'a'], [.literal 'b']], .literal '/', .literal 'd', .anyRun]
        (by rfl) (by decide) (by rfl)⟩
  have hone' : WithinLimits
      ["\x7ba,b\x7d/".toList ++ (braces ["c".toList, "d".toList] ++ "*".toList)] :=
    ⟨List.forall_mem_singleton.mpr hone.1, by decide⟩
  have hmany' : WithinLimits (listed "\x7ba,b\x7d/".toList "*".toList ["c".toList, "d".toList]) :=
    ⟨fun pattern hm => (hmany pattern hm).1, by decide⟩
  obtain ⟨one, many, hcone, hcmany, -, hpaths⟩ :=
    captures_braces hp hq (by decide) hbranch hone' hmany'
  refine ⟨⟨hp, hq, by decide, hbranch, hone', hmany'⟩, one, many, hcone, hcmany, fun path => ?_⟩
  exact hpaths path fun _ pattern hm => iff_of_false (hmany pattern hm).2 hone.2

-- A star and a dot is decided by the extension and refuses the path `..`, which a star and braces
-- around the dot accept.
theorem not_captures_braces :
    ¬ ∀ (p q : Text) (bs : List Text), (∃ list, compile [p] = .ok list) →
      (∃ list, compile [q] = .ok list) → bs ≠ [] → (∀ b ∈ bs, IsBranch b) →
      WithinLimits [p ++ (braces bs ++ q)] → WithinLimits (listed p q bs) →
      ∃ one many, compile [p ++ (braces bs ++ q)] = .ok one ∧
        compile (listed p q bs) = .ok many ∧
        (∀ pattern ∈ listed p q bs, ∃ alone, compile [pattern] = .ok alone) ∧
        ∀ path, (Policy.allowlist one).captures path = (Policy.allowlist many).captures path := by
  intro h
  have hone : parse (['*'] ++ (braces [['.']] ++ [])) =
      .ok [.anyRun, .choice [[.literal '.']]] := by rfl
  have hmany : parse (['*'] ++ (['.'] ++ [])) = .ok [.anyRun, .literal '.'] := by rfl
  obtain ⟨one, many, hcone', hcmany', -, hpaths⟩ := h ['*'] [] [['.']]
    ⟨⟨[⟨['*'], [.anyRun]⟩]⟩, by rfl⟩ ⟨⟨[⟨[], []⟩]⟩, by rfl⟩ (by decide) (by decide)
    ⟨List.forall_mem_singleton.mpr (not_nestsTooDeep_of_depth hone (by decide)), by decide⟩
    ⟨List.forall_mem_singleton.mpr (not_nestsTooDeep_of_depth hmany (by decide)), by decide⟩
  have hcone : compile [['*'] ++ (braces [['.']] ++ [])] =
      .ok ⟨[⟨['*', '\x7b', '.', '\x7d'], [.anyRun, .choice [[.literal '.']]]⟩]⟩ := by rfl
  have hcmany : compile (listed ['*'] [] [['.']]) =
      .ok ⟨[⟨['*', '.'], [.anyRun, .literal '.']⟩]⟩ := by rfl
  obtain rfl := Except.ok.inj (hcone.symm.trans hcone')
  obtain rfl := Except.ok.inj (hcmany.symm.trans hcmany')
  exact absurd (hpaths ['.', '.']) (by decide)

end Allowlist

end PathSieve
