import PathSieve.Proofs.Glob.Steps

namespace PathSieve.Glob

def Node.pieces (n : Node) : List Piece := n.spelling.map Letter.piece

def nodePieces (ns : List Node) : List Piece := (spelling ns).map Letter.piece

def branchPieces (bs : List (List Node)) : List Piece := (branchSpelling bs).map Letter.piece

def Node.last : Node → Char
  | .letter l => l.last
  | .choice _ _ => '\x7d'

@[simp] lemma nodePieces_nil : nodePieces [] = [] := rfl

lemma nodePieces_cons (n : Node) (ns : List Node) :
    nodePieces (n :: ns) = n.pieces ++ nodePieces ns := by
  rw [nodePieces, spelling, List.map_append]
  rfl

lemma Node.pieces_choice (first : List Node) (others : List (List Node)) :
    (Node.choice first others).pieces =
      .plain '\x7b' :: (nodePieces first ++ branchPieces others) := by
  rw [Node.pieces, Node.spelling, List.map_cons, List.map_append]
  rfl

lemma branchPieces_nil : branchPieces [] = [.plain '\x7d'] := rfl

lemma branchPieces_cons (b : List Node) (bs : List (List Node)) :
    branchPieces (b :: bs) = .plain ',' :: (nodePieces b ++ branchPieces bs) := by
  rw [branchPieces, branchSpelling, List.map_cons, List.map_append]
  rfl

lemma starsApart_letter {l : Letter} {depth : ℕ} {ps : List Piece} (hopen : l ≠ .plain '\x7b')
    (hclose : l ≠ .plain '\x7d') (h : starsApart depth (l.piece :: ps) = true) :
    (depth ≠ 0 → ¬ (l = .plain '*' ∧ ps.head? = some (.plain '*'))) ∧
      starsApart depth ps = true := by
  cases l with
  | plain c =>
    simp only [ne_eq, Letter.plain.injEq] at hopen hclose
    rw [Letter.piece, starsApart, if_neg hopen, if_neg hclose, Bool.and_eq_true] at h
    refine ⟨?_, h.2⟩
    rintro hd ⟨hc, hs⟩
    obtain rfl := Letter.plain.inj hc
    simp [hd, hs] at h
  | escaped c => exact ⟨by simp, h⟩
  | members k => exact ⟨by simp, h⟩

lemma starsApart_open {depth : ℕ} {ps : List Piece}
    (h : starsApart depth (.plain '\x7b' :: ps) = true) : starsApart (depth + 1) ps = true := by
  simpa [starsApart] using h

lemma starsApart_close {depth : ℕ} {ps : List Piece}
    (h : starsApart (depth + 1) (.plain '\x7d' :: ps) = true) : starsApart depth ps = true := by
  simpa [starsApart] using h

lemma starsApart_comma {depth : ℕ} {ps : List Piece}
    (h : starsApart depth (.plain ',' :: ps) = true) : starsApart depth ps = true :=
  (starsApart_letter (l := .plain ',') (by simp) (by simp) h).2

lemma branchPieces_head (bs : List (List Node)) (rest : List Piece) :
    (branchPieces bs ++ rest).head? ≠ some (.plain '*') := by
  cases bs with
  | nil => simp [branchPieces_nil]
  | cons b bs => simp [branchPieces_cons]

mutual

lemma Node.starsApart {n : Node} {inside : Bool} (hv : n.Valid inside) {depth : ℕ}
    {rest : List Piece}
    (h : starsApart depth (n.pieces ++ rest) = true) :
    starsApart depth rest = true := by
  cases n with
  | letter l =>
    cases hv with
    | letter _ hopen hclose _ => exact (starsApart_letter hopen hclose h).2
  | choice first others =>
    cases hv with
    | choice hv =>
      rw [Node.pieces_choice, List.cons_append, List.append_assoc] at h
      have hf := starsApart_nodes (hv first List.mem_cons_self) (starsApart_open h)
      exact starsApart_branches (fun b hb => hv b (List.mem_cons_of_mem first hb)) hf

lemma starsApart_nodes {ns : List Node} {inside : Bool} (hv : ∀ n ∈ ns, n.Valid inside)
    {depth : ℕ} {rest : List Piece} (h : starsApart depth (nodePieces ns ++ rest) = true) :
    starsApart depth rest = true := by
  cases ns with
  | nil => exact h
  | cons n ns =>
    rw [nodePieces_cons, List.append_assoc] at h
    exact starsApart_nodes (fun m hm => hv m (List.mem_cons_of_mem n hm))
      (Node.starsApart (hv n List.mem_cons_self) h)

lemma starsApart_branches {bs : List (List Node)} (hv : ∀ b ∈ bs, ∀ n ∈ b, n.Valid true)
    {depth : ℕ} {rest : List Piece}
    (h : starsApart (depth + 1) (branchPieces bs ++ rest) = true) :
    starsApart depth rest = true := by
  cases bs with
  | nil => exact starsApart_close h
  | cons b bs =>
    rw [branchPieces_cons, List.cons_append, List.append_assoc] at h
    have hb := starsApart_nodes (hv b List.mem_cons_self) (starsApart_comma h)
    exact starsApart_branches (fun c hc => hv c (List.mem_cons_of_mem b hc)) hb

end

variable {fault : Option Fault}

mutual

lemma Node.build_node {prev : Option Char} {groups : List Group} {ts : List Token} {n : Node}
    {inside : Bool} (hv : n.Valid inside)
    (hin : groups ≠ [] → inside = true) {rest : List Piece}
    (hstar : ¬ (n = star ∧ rest.head? = some (.plain '*')))
    (h : Glob.starsApart groups.length (n.pieces ++ rest) = true) :
    build fault prev groups ts (n.pieces ++ rest) =
      build fault (some n.last) groups (n.token :: ts) rest := by
  cases n with
  | letter l =>
    cases hv with
    | letter _ hopen hclose hcomma =>
      refine build_letter hopen hclose (fun hg => hcomma (hin hg)) ?_
      rintro ⟨rfl, hs⟩
      exact hstar ⟨rfl, hs⟩
  | choice first others =>
    cases hv with
    | choice hv =>
      rw [Node.pieces_choice, List.cons_append, List.append_assoc] at h ⊢
      have hf := starsApart_open h
      obtain ⟨last, hb⟩ := build_nodes (some '\x7b') [] (hv first List.mem_cons_self)
        (List.cons_ne_nil _ _) (branchPieces_head others rest) hf
      have hr := starsApart_nodes (hv first List.mem_cons_self) hf
      rw [build_open, hb, build_branches
        (fun b hb => hv b (List.mem_cons_of_mem first hb)) hr]
      simp [Node.token, Node.last]

lemma build_nodes (prev : Option Char) {groups : List Group} (ts : List Token)
    {ns : List Node} (hv : ∀ n ∈ ns, n.Valid true) (hg : groups ≠ [])
    {rest : List Piece} (hrest : rest.head? ≠ some (.plain '*'))
    (h : Glob.starsApart groups.length (nodePieces ns ++ rest) = true) :
    ∃ last, build fault prev groups ts (nodePieces ns ++ rest) =
      build fault last groups ((tokens ns).reverse ++ ts) rest := by
  cases ns with
  | nil => exact ⟨prev, rfl⟩
  | cons n ns =>
    rw [nodePieces_cons, List.append_assoc] at h ⊢
    have hs : ¬ (n = star ∧ (nodePieces ns ++ rest).head? = some (.plain '*')) := by
      rintro ⟨rfl, hs⟩
      have hd : groups.length ≠ 0 := by simpa using hg
      exact (starsApart_letter (l := .plain '*') (by simp) (by simp) h).1 hd ⟨rfl, hs⟩
    have hr := Node.starsApart (hv n List.mem_cons_self) h
    obtain ⟨last, hb⟩ := build_nodes (some n.last) (n.token :: ts)
      (fun m hm => hv m (List.mem_cons_of_mem n hm)) hg hrest hr
    refine ⟨last, ?_⟩
    rw [Node.build_node (hv n List.mem_cons_self) (fun _ => rfl) hs h, hb]
    simp [tokens]

lemma build_branches {prev : Option Char} {groups : List Group} {ts : List Token}
    {bs : List (List Node)} (hv : ∀ b ∈ bs, ∀ n ∈ b, n.Valid true)
    {outer : List Token} {done : List (List Token)} {rest : List Piece}
    (h : Glob.starsApart (groups.length + 1)
      (branchPieces bs ++ rest) = true) :
    build fault prev (⟨outer, done⟩ :: groups) ts
        (branchPieces bs ++ rest) =
      build fault (some '\x7d') groups
        (.choice (done.reverse ++ ts.reverse :: branchTokens bs) :: outer) rest := by
  cases bs with
  | nil =>
    rw [branchPieces_nil, List.singleton_append, build_close]
    simp [branchTokens]
  | cons b bs =>
    rw [branchPieces_cons, List.cons_append, List.append_assoc] at h ⊢
    have hb := starsApart_comma h
    obtain ⟨last, hbuild⟩ := build_nodes (some ',') [] (hv b List.mem_cons_self)
      (List.cons_ne_nil _ _) (branchPieces_head bs rest) hb
    have hr := starsApart_nodes (hv b List.mem_cons_self) hb
    rw [build_comma, hbuild,
      build_branches (fun c hc => hv c (List.mem_cons_of_mem b hc)) hr]
    simp [branchTokens]

end

end PathSieve.Glob
