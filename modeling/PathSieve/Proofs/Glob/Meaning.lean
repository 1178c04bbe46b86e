import PathSieve.Proofs.Glob.Language
import PathSieve.Proofs.Glob.Scan

namespace PathSieve.Glob

open Positions

def Letter.token : Letter → Token
  | plain c => if c = '?' then .anyByte else if c = '*' then .anyRun else .literal c
  | escaped c => .literal c
  | members k => .member k.sign.isSome k.ranges

mutual

def Node.token : Node → Token
  | .letter l => l.token
  | .choice first others => .choice (tokens first :: branchTokens others)

def tokens : List Node → List Token
  | [] => []
  | n :: ns => n.token :: tokens ns

def branchTokens : List (List Node) → List (List Token)
  | [] => []
  | b :: bs => tokens b :: branchTokens bs

end

lemma mem_bytes_iff (bytes : Bytes) (b : UInt8) :
    ((bytes.map fun c => (c, c)).any fun (low, high) => low ≤ b && b ≤ high) = true ↔
      b ∈ bytes := by
  simp only [List.any_map, List.any_eq_true, Function.comp_apply, Bool.and_eq_true,
    decide_eq_true_eq]
  constructor
  · rintro ⟨c, hc, h1, h2⟩
    rwa [UInt8.le_antisymm h2 h1]
  · intro h
    exact ⟨b, h, UInt8.le_refl b, UInt8.le_refl b⟩

lemma Member.has_iff (m : Member) (b : UInt8) :
    ((byteRanges m.range).any fun (low, high) => low ≤ b && b ≤ high) = true ↔ m.Has b := by
  rw [Member.Has]
  by_cases h : m.low = m.high
  · have hr : byteRanges m.range = (String.utf8EncodeChar m.low).map fun b => (b, b) := if_pos h
    rw [if_pos h, hr]
    exact mem_bytes_iff _ b
  · have hr : byteRanges m.range = (String.utf8EncodeChar m.low).dropLast.map (fun b => (b, b)) ++
        [((String.utf8EncodeChar m.low).getLastD 0, (String.utf8EncodeChar m.high).headD 0)] ++
        (String.utf8EncodeChar m.high).tail.map fun b => (b, b) := if_neg h
    rw [if_neg h, hr, List.any_append, List.any_append, Bool.or_eq_true, Bool.or_eq_true,
      mem_bytes_iff, mem_bytes_iff]
    simp [or_assoc]

lemma Class.has_iff (k : Class) (b : UInt8) :
    isMember k.sign.isSome k.ranges b = true ↔ k.Has b := by
  have hs : ((k.ranges.flatMap byteRanges).any fun (low, high) => low ≤ b && b ≤ high) = true ↔
      k.Spells b := by
    rw [Class.ranges, List.flatMap_append, List.any_append, Bool.or_eq_true, List.flatMap_map,
      List.any_flatMap, Class.Spells]
    refine or_congr ?_ ?_
    · simp only [List.any_eq_true (l := k.first :: k.others), Member.has_iff]
    · cases k.hyphen with
      | false => simp
      | true => simpa [byteRanges] using mem_bytes_iff (String.utf8EncodeChar '-') b
  rw [isMember, Class.Has]
  cases k.sign with
  | none => simpa using hs
  | some c => simpa [← Bool.not_eq_true] using not_congr hs

lemma Letter.fits_iff (l : Letter) (s : Bytes) : l.Fits s ↔ s ∈ l.token.language := by
  cases l with
  | plain c =>
    rw [Letter.token]
    split_ifs with hq hs
    · subst hq
      rw [Token.language, mem_lettersOf]
      constructor
      · intro h
        cases h with
        | char h => exact absurd rfl h
        | anyByte b => exact ⟨b, rfl, rfl⟩
      · rintro ⟨b, -, rfl⟩
        exact .anyByte b
    · subst hs
      rw [Token.language]
      exact ⟨fun _ => trivial, fun _ => .anyRun s⟩
    · rw [Token.language]
      constructor
      · intro h
        cases h with
        | char => rfl
        | anyByte => exact absurd rfl hq
        | anyRun => exact absurd rfl hs
      · rintro rfl
        exact .char hq hs
  | escaped c =>
    rw [Letter.token, Token.language]
    constructor
    · rintro ⟨⟩
      rfl
    · rintro rfl
      exact .escaped
  | members k =>
    rw [Letter.token, Token.language, mem_lettersOf]
    simp only [Class.has_iff]
    constructor
    · rintro ⟨⟩
      exact ⟨_, ‹_›, rfl⟩
    · rintro ⟨b, hb, rfl⟩
      exact .members hb

mutual

lemma Node.isVoid_token (n : Node) : n.token.isVoid = true ↔ n.Blank := by
  cases n with
  | letter l =>
    have h : l.token.isVoid = false := by
      cases l with
      | plain c =>
        rw [Letter.token]
        split_ifs <;> rfl
      | escaped c => rfl
      | members k => rfl
    rw [Node.token, h]
    constructor
    · rintro ⟨⟩
    · rintro ⟨⟩
  | choice first others =>
    rw [Node.token, Token.isVoid, areAllVoid, Bool.and_eq_true, isVoid_tokens first,
      areAllVoid_branchTokens others,
      ← List.forall_mem_cons (p := fun b : List Node => ∀ n ∈ b, n.Blank)]
    constructor
    · exact .choice
    · rintro ⟨h⟩
      exact h

lemma isVoid_tokens (ns : List Node) : isVoid (tokens ns) = true ↔ ∀ n ∈ ns, n.Blank := by
  cases ns with
  | nil => simp [tokens, isVoid]
  | cons n ns =>
    rw [tokens, isVoid, Bool.and_eq_true, Node.isVoid_token n, isVoid_tokens ns,
      List.forall_mem_cons]

lemma areAllVoid_branchTokens (bs : List (List Node)) :
    areAllVoid (branchTokens bs) = true ↔ ∀ b ∈ bs, ∀ n ∈ b, n.Blank := by
  cases bs with
  | nil => simp [branchTokens, areAllVoid]
  | cons b bs =>
    rw [branchTokens, areAllVoid, Bool.and_eq_true, isVoid_tokens b, areAllVoid_branchTokens bs,
      List.forall_mem_cons]

end

mutual

lemma Node.fits_iff (n : Node) (s : Bytes) : n.Fits s ↔ s ∈ n.token.language := by
  cases n with
  | letter l =>
    rw [Node.token, ← Letter.fits_iff]
    constructor
    · rintro ⟨⟩
      assumption
    · exact .letter
  | choice first others =>
    have hv := areAllVoid_branchTokens (first :: others)
    have ha := mem_anyLanguage (first :: others) s
    rw [branchTokens] at hv ha
    rw [Node.token, Token.language]
    split_ifs with h
    · rw [Language.mem_one]
      constructor
      · intro hf
        cases hf with
        | branch hb hn => exact absurd (hv.mp h _ hb) hn
        | blank => rfl
      · rintro rfl
        exact .blank (hv.mp h)
    · rw [ha]
      constructor
      · intro hf
        cases hf with
        | branch hb hn hs => exact ⟨_, hb, hn, hs⟩
        | blank hb => exact absurd (hv.mpr hb) h
      · rintro ⟨b, hb, hn, hs⟩
        exact .branch hb hn hs

lemma fitsAll_iff (ns : List Node) (s : Bytes) : FitsAll ns s ↔ s ∈ language (tokens ns) := by
  cases ns with
  | nil =>
    rw [tokens, language_nil, Language.mem_one]
    constructor
    · rintro ⟨⟩
      rfl
    · rintro rfl
      exact .nil
  | cons n ns =>
    rw [tokens, language_cons, Language.mem_mul]
    constructor
    · rintro ⟨⟩
      rename_i x y hx hy
      exact ⟨x, (Node.fits_iff n x).mp hx, y, (fitsAll_iff ns y).mp hy, rfl⟩
    · rintro ⟨x, hx, y, hy, rfl⟩
      exact .cons ((Node.fits_iff n x).mpr hx) ((fitsAll_iff ns y).mpr hy)

lemma mem_anyLanguage (bs : List (List Node)) (s : Bytes) :
    s ∈ anyLanguage (branchTokens bs) ↔ ∃ b ∈ bs, ¬ (∀ n ∈ b, n.Blank) ∧ FitsAll b s := by
  cases bs with
  | nil => simp [branchTokens, anyLanguage]
  | cons b bs =>
    rw [branchTokens, anyLanguage]
    have hv := isVoid_tokens b
    split_ifs with h
    · have hb : ¬ (¬ (∀ n ∈ b, n.Blank) ∧ FitsAll b s) := fun hf => hf.1 (hv.mp h)
      rw [mem_anyLanguage bs s, List.exists_mem_cons_iff, or_iff_right hb]
    · have hb : ¬ (∀ n ∈ b, n.Blank) := mt hv.mpr h
      rw [Language.mem_add, mem_anyLanguage bs s, ← fitsAll_iff b s,
        List.exists_mem_cons_iff, and_iff_right hb]

end

end PathSieve.Glob
