import PathSieve.Proofs.Glob.Build

namespace PathSieve.Glob

def balanced : (depth : ℕ) → List Piece → Bool
  | depth, [] => depth == 0
  | depth, .plain c :: ps =>
    if c = '\x7b' then balanced (depth + 1) ps
    else if c = '\x7d' then depth != 0 && balanced (depth - 1) ps
    else balanced depth ps
  | depth, _ :: ps => balanced depth ps

lemma balanced_of_build {fault : Option Fault} {prev : Option Char} {groups : List Group}
    {ts out : List Token} {ps : List Piece} (h : build fault prev groups ts ps = .ok out) :
    fault = none ∧ balanced groups.length ps = true := by
  fun_induction build fault prev groups ts ps <;>
    simp_all [balanced]

def Closes : (depth : ℕ) → List Letter → Prop
  | 0, ls => ∃ ns, (∀ n ∈ ns, n.Valid false) ∧ spelling ns = ls
  | depth + 1, ls => ∃ ns bs rest, (∀ b ∈ ns :: bs, ∀ n ∈ b, n.Valid true) ∧
      ls = spelling ns ++ (branchSpelling bs ++ rest) ∧ Closes depth rest

lemma Closes.node {depth : ℕ} {ls : List Letter} {n : Node} (h : Closes depth ls)
    (hv : n.Valid (depth != 0)) : Closes depth (n.spelling ++ ls) := by
  cases depth with
  | zero =>
    obtain ⟨ns, hns, rfl⟩ := h
    refine ⟨n :: ns, ?_, by rw [spelling]⟩
    rw [List.forall_mem_cons]
    exact ⟨hv, hns⟩
  | succ depth =>
    obtain ⟨ns, bs, rest, hns, rfl, hrest⟩ := h
    rw [List.forall_mem_cons] at hns
    refine ⟨n :: ns, bs, rest, ?_, by rw [spelling, List.append_assoc], hrest⟩
    rw [List.forall_mem_cons, List.forall_mem_cons]
    exact ⟨⟨hv, hns.1⟩, hns.2⟩

lemma closes_of_balanced {ls : List Letter} (hv : ∀ l ∈ ls, l.Valid) {depth : ℕ}
    (h : balanced depth (ls.map Letter.piece) = true) : Closes depth ls := by
  induction ls generalizing depth with
  | nil =>
    obtain rfl : depth = 0 := by simpa [balanced] using h
    exact ⟨[], by simp, rfl⟩
  | cons l ls ih =>
    rw [List.forall_mem_cons] at hv
    by_cases hopen : l = .plain '\x7b'
    · -- the branches of the new braces become one choice in front of what follows them
      subst hopen
      have hb : balanced (depth + 1) (ls.map Letter.piece) = true := by
        simpa [balanced, Letter.piece] using h
      obtain ⟨ns, bs, rest, hns, rfl, hrest⟩ := ih hv.2 hb
      have hc := hrest.node (n := .choice ns bs) (.choice hns)
      simpa [Node.spelling] using hc
    by_cases hclose : l = .plain '\x7d'
    · subst hclose
      cases depth with
      | zero => simp [balanced, Letter.piece] at h
      | succ depth =>
        have hb : balanced depth (ls.map Letter.piece) = true := by
          simpa [balanced, Letter.piece] using h
        exact ⟨[], [], ls, by simp, rfl, ih hv.2 hb⟩
    have hb : balanced depth (ls.map Letter.piece) = true := by
      cases l <;> simp_all [balanced, Letter.piece]
    have hc := ih hv.2 hb
    by_cases hcomma : depth ≠ 0 ∧ l = .plain ','
    · obtain ⟨hd, rfl⟩ := hcomma
      obtain ⟨depth, rfl⟩ := Nat.exists_eq_succ_of_ne_zero hd
      obtain ⟨ns, bs, rest, hns, rfl, hrest⟩ := hc
      refine ⟨[], ns :: bs, rest, ?_, ?_, hrest⟩
      · simpa using hns
      · simp [spelling, branchSpelling]
    · refine hc.node (n := .letter l) (.letter hv.1 hopen hclose ?_)
      intro hd hl
      exact hcomma ⟨by simpa using hd, hl⟩

lemma parse_eq (p : Text) : parse p = build (pieces p).2 none [] [] (pieces p).1 := rfl

lemma exists_nodes {p : Text} {out : List Token} (h : parse p = .ok out) :
    ∃ ns, (∀ n ∈ ns, n.Valid false) ∧ text ns = p := by
  rw [parse_eq] at h
  obtain ⟨hf, hb⟩ := balanced_of_build h
  obtain ⟨ls, hv, rfl⟩ := exists_letters hf
  rw [pieces_letters hv] at hb
  obtain ⟨ns, hns, rfl⟩ := closes_of_balanced hv hb
  exact ⟨ns, hns, rfl⟩

mutual

lemma Node.Valid.letters {n : Node} {inside : Bool} (h : n.Valid inside) :
    ∀ l ∈ n.spelling, l.Valid := by
  cases n with
  | letter l =>
    cases h with
    | letter hl => simpa [Node.spelling] using hl
  | choice first others =>
    cases h with
    | choice h =>
      rw [List.forall_mem_cons] at h
      rw [Node.spelling, List.forall_mem_cons, List.forall_mem_append]
      exact ⟨.plain (by simp) (by simp), letters_spelling h.1, letters_branchSpelling h.2⟩

lemma letters_spelling {ns : List Node} {inside : Bool} (h : ∀ n ∈ ns, n.Valid inside) :
    ∀ l ∈ spelling ns, l.Valid := by
  cases ns with
  | nil => simp [spelling]
  | cons n ns =>
    rw [List.forall_mem_cons] at h
    rw [spelling, List.forall_mem_append]
    exact ⟨h.1.letters, letters_spelling h.2⟩

lemma letters_branchSpelling {bs : List (List Node)} (h : ∀ b ∈ bs, ∀ n ∈ b, n.Valid true) :
    ∀ l ∈ branchSpelling bs, l.Valid := by
  cases bs with
  | nil => simpa [branchSpelling] using Letter.Valid.plain (by simp) (by simp)
  | cons b bs =>
    rw [List.forall_mem_cons] at h
    rw [branchSpelling, List.forall_mem_cons, List.forall_mem_append]
    exact ⟨.plain (by simp) (by simp), letters_spelling h.1, letters_branchSpelling h.2⟩

end

lemma pieces_text {ns : List Node} (h : ∀ n ∈ ns, n.Valid false) :
    pieces (text ns) = (nodePieces ns, none) :=
  pieces_letters (letters_spelling h)

end PathSieve.Glob
