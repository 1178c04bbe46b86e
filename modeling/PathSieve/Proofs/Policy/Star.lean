import PathSieve.Proofs.Glob.Depth
import PathSieve.Proofs.Glob.Star
import PathSieve.Proofs.Policy.Compile

namespace PathSieve

namespace Glob

lemma IsOpen.accepts_append {ts : List Token} (h : IsOpen ts) {path : Bytes}
    (hpath : accepts ts path = true) (rest : Bytes) : accepts ts (path ++ rest) = true := by
  rw [accepts_iff, h.isByName, Accepted] at hpath ⊢
  refine ⟨?_, by simp⟩
  by_cases hne : ts = [.dirsBefore]
  · exact Or.inl hne
  · exact Or.inr (mem_language_append h hne (hpath.1.resolve_left hne) rest)

section Extension

variable {s : Text}

lemma build_extension (h : IsLiteral s) (hs : s ≠ []) (rest : List Piece) :
    build none none [] [] (.plain '*' :: (s.map .plain ++ rest)) =
      build none (s.getLast?.or (some '*')) [] ((literals s).reverse ++ [.anyRun]) rest := by
  obtain ⟨c, s, rfl⟩ := List.exists_cons_of_ne_nil hs
  have hc : c ≠ '*' := by
    rintro rfl
    exact h '*' List.mem_cons_self (by decide)
  rw [← build_literal h (by simp)]
  exact build_letter (l := .plain '*') (by simp) (by simp) (by simp) (by simp [hc])

lemma pieces_extension (h : IsLiteral s) (rest : Text) (hrest : ∀ c ∈ rest, c = '*') :
    pieces ('*' :: (s ++ rest)) = (.plain '*' :: (s.map .plain ++ rest.map .plain), none) := by
  rw [pieces_plain, List.map_cons, List.map_append]
  rw [List.forall_mem_cons, List.forall_mem_append]
  refine ⟨by decide, h.isPlain, fun c hc => ?_⟩
  rw [hrest c hc]
  decide

lemma parse_extension (h : IsLiteral s) (hs : s ≠ []) :
    parse ('*' :: s) = .ok (.anyRun :: literals s) := by
  have hp := pieces_extension h [] (by simp)
  rw [List.append_nil] at hp
  rw [parse_eq, hp, List.map_nil, build_extension h hs, build_nil]
  simp

lemma parse_extension_star (h : IsLiteral s) (hs : s ≠ []) :
    parse ('*' :: (s ++ ['*'])) = .ok (.anyRun :: literals s ++ [.anyRun]) := by
  rw [parse_eq, pieces_extension h ['*'] (by simp), List.map_singleton, build_extension h hs,
    build_lastStar]
  simp

namespace Method

lemma ofTokens_extension (hdot : '.' ∉ s) (hslash : '/' ∉ s) :
    ofTokens (.anyRun :: literals ('.' :: s)) = extension ('.' :: s) := by
  have hname : name? (.anyRun :: literals ('.' :: s)) = none := rfl
  have hwhole : whole? (.anyRun :: literals ('.' :: s)) = none := rfl
  have hextension : extension? (.anyRun :: literals ('.' :: s)) = some ('.' :: s) := by
    rw [literals_cons]
    simp [extension?, afterDirs, literals?_literals, Option.filter, hdot, hslash]
  simp [ofTokens, hname, hwhole, hextension]

lemma ofTokens_extension_star :
    ofTokens (.anyRun :: literals ('.' :: s) ++ [.anyRun]) = expression := by
  have hnone := literals?_append_star s
  have hname : name? (.anyRun :: literals ('.' :: s) ++ [.anyRun]) = none := rfl
  have hwhole : whole? (.anyRun :: literals ('.' :: s) ++ [.anyRun]) = none := rfl
  have hextension : extension? (.anyRun :: literals ('.' :: s) ++ [.anyRun]) = none := by
    rw [literals_cons]
    simp [extension?, afterDirs, hnone]
  have hfront : front? (.anyRun :: literals ('.' :: s) ++ [.anyRun]) = none := by
    rw [front?, List.getLast?_concat, List.dropLast_concat]
    rfl
  have hback : back? (.anyRun :: literals ('.' :: s) ++ [.anyRun]) = none := by
    rw [literals_cons]
    simp [back?, afterDirs, literals?, hnone]
  have hlast :
      lastExtension? (Token.anyRun :: literals ('.' :: s) ++ [Token.anyRun]).reverse = none := by
    rw [List.reverse_concat]
    rfl
  have hstays : isNameExpression (.anyRun :: literals ('.' :: s) ++ [.anyRun]) = false := rfl
  rw [ofTokens, hname, hwhole, hextension, hfront, hback, hlast, hstays]
  rfl

end Method

end Extension

end Glob

namespace Allowlist

open Glob

lemma depth_le_of_not_isRefused {g : Pattern} (h : ¬ IsRefused g) :
    depth g.tokens ≤ depthLimit := by
  by_contra hdeep
  have hchoice : ∃ bs, .choice bs ∈ g.tokens := by
    by_contra hnone
    exact hdeep (depth_le_of_notMem (not_exists.mp hnone))
  obtain ⟨bs, hbs⟩ := hchoice
  exact h ⟨decide_eq_true (Nat.not_le.mp hdeep),
    (Method.isExpression_of_choice hbs).imp_right Or.inr⟩

lemma exists_parseOne_star {q : Text} (h : ∃ g, parseOne q = .ok g ∧ ¬ IsRefused g) :
    (∃ g, parseOne (q ++ ['*']) = .ok g ∧ ¬ IsRefused g) ∧
      ∃ ts, parse (q ++ ['*']) = .ok ts ∧ IsOpen ts := by
  obtain ⟨g, hg, hrefused⟩ := h
  obtain ⟨ts, hts, hopen, hchoice⟩ := exists_parse_star (parseOne_ok.mp hg).2
  have hdepth := depth_le_of_choice hchoice (depth_le_of_not_isRefused hrefused)
  exact ⟨exists_parseOne_of_depth hts hdepth, ts, hts, hopen⟩

def EndsInStar (p : Text) : Prop := ∃ q list, compile [q] = .ok list ∧ p = q ++ ['*']

lemma EndsInStar.exists_compile {p : Text} (h : EndsInStar p) (hfits : FitsLimit [p]) :
    ∃ list, compile [p] = .ok list := by
  obtain ⟨q, list, hq, rfl⟩ := h
  have hone := (exists_compile_one.mp ⟨list, hq⟩).1
  exact exists_compile_one.mpr ⟨(exists_parseOne_star hone).1, hfits⟩

lemma EndsInStar.isOpen {p : Text} (h : EndsInStar p) {ts : List Token} (hts : parse p = .ok ts) :
    IsOpen ts := by
  obtain ⟨q, list, hq, rfl⟩ := h
  obtain ⟨-, us, hus, hopen⟩ := exists_parseOne_star (exists_compile_one.mp ⟨list, hq⟩).1
  exact Except.ok.inj (hus.symm.trans hts) ▸ hopen

lemma accepts_append {patterns : List Text} {list : Allowlist} (h : compile patterns = .ok list)
    (hstar : ∀ p ∈ patterns, EndsInStar p) {path : Text} (hpath : list.accepts path = true)
    (rest : Text) : list.accepts (path ++ rest) = true := by
  rw [accepts_iff_exists h] at hpath ⊢
  obtain ⟨hne, p, hp, ts, hts, haccepts⟩ := hpath
  refine ⟨List.append_ne_nil_of_left_ne_nil hne rest, p, hp, ts, hts, ?_⟩
  have hencode : Utf8.encode (path ++ rest) = Utf8.encode path ++ Utf8.encode rest :=
    List.flatMap_append
  rw [hencode]
  exact ((hstar p hp).isOpen hts).accepts_append haccepts _

section Extension

variable {s : Text}

lemma exists_compile_extension (h : IsLiteral s) (hdot : '.' ∉ s) (hslash : '/' ∉ s) :
    ∃ list, compile ['*' :: '.' :: s] = .ok list := by
  have hliteral : IsLiteral ('.' :: s) := List.forall_mem_cons.mpr ⟨by decide, h⟩
  have hparse := parse_extension hliteral (by simp)
  refine exists_compile_one.mpr ⟨exists_parseOne_of_depth hparse
    (depth_le_of_notMem (by simp [choice_notMem_literals])), ?_⟩
  refine fitsLimit_of_not_isHandedOn (List.forall_mem_singleton.mpr fun g hg => ?_)
  obtain hts := Except.ok.inj ((parseOne_ok.mp hg).2.symm.trans hparse)
  rw [IsHandedOn, Pattern.method, hts, Method.ofTokens_extension hdot hslash]
  simp [Method.needsExtension]

-- Behind a star the characters of a regular expression take room each.
lemma not_exists_compile_extension_star (h : IsLiteral s)
    (hlong : sizeLimit < Regex.stateSize * s.length) :
    ¬ ∃ list, compile ['*' :: '.' :: (s ++ ['*'])] = .ok list := by
  have hliteral : IsLiteral ('.' :: s) := List.forall_mem_cons.mpr ⟨by decide, h⟩
  have hparse : parse ('*' :: '.' :: (s ++ ['*'])) = _ := parse_extension_star hliteral (by simp)
  have hg : parseOne ('*' :: '.' :: (s ++ ['*'])) = .ok ⟨_, _⟩ := parseOne_ok.mpr ⟨rfl, hparse⟩
  have hglobs : (['*' :: '.' :: (s ++ ['*'])].filterMap fun p => (parseOne p).toOption) =
      [⟨'*' :: '.' :: (s ++ ['*']), .anyRun :: literals ('.' :: s) ++ [.anyRun]⟩] := by
    rw [List.filterMap_cons_some (by rw [hg]; rfl), List.filterMap_nil]
  refine fun hcompile => not_fitsLimit hglobs
    (List.forall_mem_singleton.mpr Method.ofTokens_extension_star) ?_
    (exists_compile_one.mp hcompile).2
  have hsequence : sequenceSize (literals s) ≤
      sequenceSize (.anyRun :: literals ('.' :: s) ++ [.anyRun]) := by
    rw [literals_cons, List.cons_append, List.cons_append, sequenceSize, sequenceSize,
      sequenceSize_append]
    omega
  have hsize : sequenceSize (.anyRun :: literals ('.' :: s) ++ [.anyRun]) ≤
      size (.anyRun :: literals ('.' :: s) ++ [.anyRun]) := Nat.le_add_left _ _
  rw [List.map_singleton, List.sum_singleton]
  exact hlong.trans_le ((length_le_sequenceSize_literals s).trans (hsequence.trans hsize))

end Extension

end Allowlist

end PathSieve
