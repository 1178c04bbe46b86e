import PathSieve.Proofs.Glob.Coverage
import PathSieve.Proofs.Glob.Nodes

namespace PathSieve.Glob

/-- Where building stands outside braces: what has been read ends a component exactly when the next
one is fresh, and then its last token is one that a `**` joins. -/
structure Ready (fresh : Bool) (prev : Option Char) (ts : List Token) : Prop where
  fresh_iff : fresh = true ↔ ts = [] ∨ prev = some '/'
  joins : prev = some '/' → ∃ t us, ts = t :: us ∧
    (t = .literal '/' ∨ t = .dirsBetween ∨ t = .dirsBefore ∧ us = [])

lemma Letter.token_ne_dirsBefore (l : Letter) : l.token ≠ .dirsBefore := by
  cases l with
  | plain c =>
    rw [Letter.token]
    split_ifs <;> simp
  | escaped c => simp [Letter.token]
  | members k => simp [Letter.token]

lemma Node.token_ne_dirsBefore (n : Node) : n.token ≠ .dirsBefore := by
  cases n with
  | letter l => exact l.token_ne_dirsBefore
  | choice first others => simp [Node.token]

lemma Node.isSlash_iff (n : Node) : n.isSlash = true ↔ n.last = '/' := by
  cases n with
  | letter l => cases l <;> simp [Node.isSlash, Node.last, Letter.last]
  | choice first others => simp [Node.isSlash, Node.last]

lemma Node.token_of_isSlash {n : Node} (h : n.isSlash = true) : n.token = .literal '/' := by
  cases n with
  | letter l =>
    cases l with
    | plain c =>
      obtain rfl : c = '/' := by simpa [Node.isSlash] using h
      rfl
    | escaped c =>
      obtain rfl : c = '/' := by simpa [Node.isSlash] using h
      rfl
    | members k => simp [Node.isSlash] at h
  | choice first others => simp [Node.isSlash] at h

lemma Ready.node (n : Node) (ts : List Token) :
    Ready n.isSlash (some n.last) (n.token :: ts) where
  fresh_iff := by simp [Node.isSlash_iff]
  joins h :=
    ⟨n.token, ts, rfl, Or.inl (Node.token_of_isSlash (n.isSlash_iff.mpr (by simpa using h)))⟩

lemma nodePieces_eq_nil {ns : List Node} : nodePieces ns = [] ↔ ns = [] := by
  cases ns with
  | nil => simp
  | cons n ns => cases n <;> simp [nodePieces, spelling, Node.spelling]

lemma nodePieces_head {ns : List Node} {c : Char} (hc : c ≠ '\x7b') :
    (nodePieces ns).head? = some (.plain c) ↔ ns.head? = some (.letter (.plain c)) := by
  cases ns with
  | nil => simp
  | cons n ns =>
    cases n with
    | letter l => cases l <;> simp [nodePieces, spelling, Node.spelling, Letter.piece]
    | choice first others =>
      simp [nodePieces, spelling, Node.spelling, Letter.piece, Ne.symm hc]

lemma build_step {n : Node} {ns : List Node} (hv : ∀ m ∈ n :: ns, m.Valid false)
    (ha : starsApart 0 (nodePieces (n :: ns)) = true) {fresh : Bool} {prev : Option Char}
    {ts : List Token} (hr : Ready fresh prev ts) (hd : ¬ (fresh = true ∧ StartsDirs (n :: ns))) :
    ∃ ms rest fresh' prev', n :: ns = ms ++ rest ∧ ms ≠ [] ∧
      build none prev [] ts (nodePieces (n :: ns)) =
        build none prev' [] ((tokens ms).reverse ++ ts) (nodePieces rest) ∧
      Ready fresh' prev' ((tokens ms).reverse ++ ts) ∧
      coverage fresh (n :: ns) = language (tokens ms) * coverage fresh' rest := by
  -- two stars that are no component are read at once, as two runs
  by_cases hpair : n = star ∧ ns.head? = some star
  · obtain ⟨rfl, hs⟩ := hpair
    obtain ⟨ns, rfl⟩ : ∃ r, ns = star :: r := by
      cases ns with
      | nil => simp at hs
      | cons m ns => exact ⟨ns, by simpa using hs⟩
    refine ⟨[star, star], ns, false, some '*', rfl, by simp, ?_, Ready.node star _, ?_⟩
    · refine build_runs (fun hf => ?_ :
        ts = [] ∨ prev = some '/' → ∃ p ps, nodePieces ns = p :: ps ∧ p ≠ .plain '/')
      have hd' : ¬ StartsDirs (star :: star :: ns) := fun h => hd ⟨hr.fresh_iff.mpr hf, h⟩
      cases hn : nodePieces ns with
      | nil =>
        rw [nodePieces_eq_nil] at hn
        exact absurd (Or.inl (by rw [hn])) hd'
      | cons p ps =>
        refine ⟨p, ps, rfl, ?_⟩
        rintro rfl
        have hh : ns.head? = some slash := (nodePieces_head (by simp)).mp (by rw [hn]; rfl)
        obtain ⟨r, rfl⟩ : ∃ r, ns = slash :: r := ⟨ns.tail, by
          cases ns with
          | nil => simp at hh
          | cons m ns => simpa using hh⟩
        exact hd' (Or.inr (List.prefix_append [star, star, slash] r))
    · have h2 : ¬ (star.isSlash = true ∧ StartsDirs (star :: ns)) := by simp [Node.isSlash, star]
      rw [coverage_node hd, coverage_node h2, ← mul_assoc]
      simp [tokens, Node.isSlash, star]
  · refine ⟨[n], ns, n.isSlash, some n.last, rfl, by simp, ?_, Ready.node n ts, ?_⟩
    · rw [nodePieces_cons] at ha ⊢
      refine Node.build_node (hv n List.mem_cons_self) (by simp) ?_ ha
      rintro ⟨rfl, hs⟩
      exact hpair ⟨rfl, (nodePieces_head (by simp)).mp hs⟩
    · rw [coverage_node hd]
      simp [tokens]

lemma valid_right {ms ns : List Node} {inside : Bool}
    (h : ∀ n ∈ ms ++ ns, n.Valid inside) : ∀ n ∈ ns, n.Valid inside :=
  fun n hn => h n (List.mem_append_right ms hn)

lemma nodePieces_append (ms ns : List Node) :
    nodePieces (ms ++ ns) = nodePieces ms ++ nodePieces ns := by
  induction ms with
  | nil => rfl
  | cons m ms ih =>
    rw [List.cons_append, nodePieces_cons, nodePieces_cons, ih, List.append_assoc]

lemma starsApart_right {ms ns : List Node} (hv : ∀ n ∈ ms ++ ns, n.Valid false)
    (h : starsApart 0 (nodePieces (ms ++ ns)) = true) : starsApart 0 (nodePieces ns) = true := by
  rw [nodePieces_append] at h
  exact starsApart_nodes (fun n hn => hv n (List.mem_append_left ns hn)) h

lemma dirsBefore_notMem_tokens (ns : List Node) : Token.dirsBefore ∉ tokens ns := by
  induction ns with
  | nil => simp [tokens]
  | cons n ns ih =>
    rw [tokens, List.mem_cons, not_or]
    exact ⟨n.token_ne_dirsBefore.symm, ih⟩

lemma tokens_ne_nil {ns : List Node} (h : ns ≠ []) : tokens ns ≠ [] := by
  cases ns with
  | nil => exact absurd rfl h
  | cons n ns => simp [tokens]

lemma reverse_append_ne (ts : List Token) {us : List Token} (hus : us ≠ [])
    (h : Token.dirsBefore ∉ us) :
    us.reverse ++ ts ≠ [] ∧ us.reverse ++ ts ≠ [.dirsBefore] := by
  have hr : us.reverse ≠ [] := by simpa using hus
  refine ⟨by simp [hus], fun he => ?_⟩
  obtain ⟨t, l, hl⟩ := List.exists_cons_of_ne_nil hr
  rw [hl, List.cons_append] at he
  obtain ⟨rfl, -⟩ := List.cons.inj he
  exact h (List.mem_reverse.mp (hl ▸ List.mem_cons_self))

def BuildsOn (ns : List Node) : Prop :=
  ∀ (fresh : Bool) (prev : Option Char) (ts : List Token), Ready fresh prev ts → ts ≠ [] →
    ts ≠ [.dirsBefore] → ∃ out, build none prev [] ts (nodePieces ns) = .ok out ∧
      out ≠ [.dirsBefore] ∧ language out = language ts.reverse * coverage fresh ns

lemma build_past {n : Node} {ns : List Node} (hv : ∀ m ∈ n :: ns, m.Valid false)
    (ha : starsApart 0 (nodePieces (n :: ns)) = true) {fresh : Bool} {prev : Option Char}
    {ts : List Token} (hr : Ready fresh prev ts) (hd : ¬ (fresh = true ∧ StartsDirs (n :: ns)))
    (hrest : ∀ rest : List Node, rest.length < (n :: ns).length →
      (∀ m ∈ rest, m.Valid false) → starsApart 0 (nodePieces rest) = true → BuildsOn rest) :
    ∃ out, build none prev [] ts (nodePieces (n :: ns)) = .ok out ∧ out ≠ [.dirsBefore] ∧
      language out = language ts.reverse * coverage fresh (n :: ns) := by
  obtain ⟨ms, rest, fresh', prev', he, hms, hb, hready, hc⟩ := build_step hv ha hr hd
  have hlen : rest.length < (n :: ns).length := by
    have := List.length_pos_of_ne_nil hms
    rw [he, List.length_append]
    omega
  rw [he] at hv ha
  obtain ⟨h1, h2⟩ := reverse_append_ne ts (tokens_ne_nil hms) (dirsBefore_notMem_tokens ms)
  obtain ⟨out, hout, ho, hlang⟩ :=
    hrest rest hlen (valid_right hv) (starsApart_right hv ha) fresh' prev' _ hready h1 h2
  refine ⟨out, hb.trans hout, ho, ?_⟩
  rw [hlang, hc]
  simp [mul_assoc]

lemma builds_on {ns : List Node} (hv : ∀ n ∈ ns, n.Valid false)
    (ha : starsApart 0 (nodePieces ns) = true) : BuildsOn ns := by
  -- a step takes one node, two stars or a component `**`, so the induction is on the length
  induction hk : ns.length using Nat.strongRecOn generalizing ns with
  | ind k ih =>
    subst hk
    intro fresh prev ts hr hn hl
    by_cases hd : fresh = true ∧ StartsDirs ns
    · obtain ⟨rfl, hd⟩ := hd
      have hp : prev = some '/' := (hr.fresh_iff.mp rfl).resolve_left hn
      obtain ⟨t, us, rfl, ht⟩ := hr.joins hp
      have ht' : t = .literal '/' ∨ t = .dirsBetween := by
        rcases ht with rfl | rfl | ⟨rfl, rfl⟩
        · exact Or.inl rfl
        · exact Or.inr rfl
        · exact absurd rfl hl
      obtain ⟨⟨hj1, hl1⟩, hj2, hl2⟩ := join_language ht' us
      rcases hd with rfl | ⟨ns, rfl⟩
      · refine ⟨_, build_dirsLast (Or.inr hp), ?_, ?_⟩
        · simp [hj1, List.append_eq_singleton_iff]
        · simp [hj1, hl1, coverage_dirsLast, mul_assoc]
      · have hready : Ready true (some '/') (.dirsBetween :: us) :=
          ⟨by simp, fun _ => ⟨_, _, rfl, Or.inr (Or.inl rfl)⟩⟩
        obtain ⟨out, hb, ho, hlang⟩ := ih ns.length (by simp; omega) (valid_right hv)
          (starsApart_right hv ha) rfl _ _ _ hready (by simp) (by simp)
        refine ⟨out, ?_, ho, ?_⟩
        · change build none prev [] (t :: us)
            (.plain '*' :: .plain '*' :: .plain '/' :: nodePieces ns) = .ok out
          rw [build_dirs (Or.inr hp), if_neg hn, hj2, hb]
        · change _ = _ * coverage true (star :: star :: slash :: ns)
          rw [hlang, coverage_dirs]
          simp [hl2, mul_assoc]
    · cases ns with
      | nil =>
        refine ⟨ts.reverse, by simp [build], ?_, by rw [coverage_nil, mul_one]⟩
        intro he
        exact hl (by simpa using congrArg List.reverse he)
      | cons n ns =>
        exact build_past hv ha hr hd fun rest hlen hv' ha' => ih _ hlen hv' ha' rfl

def Accepted (out : List Token) (s : Bytes) : Prop := out = [.dirsBefore] ∨ s ∈ language out

lemma build_dirsBefore {ns : List Node} (hv : ∀ n ∈ ns, n.Valid false)
    (ha : starsApart 0 (nodePieces ns) = true) :
    ∃ out, build none (some '/') [] [.dirsBefore] (nodePieces ns) = .ok out ∧
      ∀ s, Accepted out s ↔ Covers true (star :: star :: slash :: ns) s ∨
        OnlyDirs (star :: star :: slash :: ns) := by
  have hready : Ready true (some '/') [.dirsBefore] :=
    ⟨by simp, fun _ => ⟨_, _, rfl, Or.inr (Or.inr ⟨rfl, rfl⟩)⟩⟩
  induction hk : ns.length using Nat.strongRecOn generalizing ns with
  | ind k ih =>
    subst hk
    by_cases hd : StartsDirs ns
    · rcases hd with rfl | ⟨ns, rfl⟩
      · refine ⟨_, build_dirsLast (Or.inr rfl), fun s => ?_⟩
        exact ⟨fun _ => Or.inl (.dirsNone (.dirsLast s)), fun _ => Or.inl rfl⟩
      · obtain ⟨out, hb, hout⟩ := ih ns.length (by simp; omega) (valid_right hv)
          (starsApart_right hv ha) rfl
        refine ⟨out, ?_, fun s => ?_⟩
        · change build none (some '/') [] [.dirsBefore]
            (.plain '*' :: .plain '*' :: .plain '/' :: nodePieces ns) = .ok out
          rw [build_dirs (Or.inr rfl), if_neg (by simp)]
          exact hb
        · change _ ↔ Covers true (star :: star :: slash :: star :: star :: slash :: ns) s ∨
            OnlyDirs (star :: star :: slash :: star :: star :: slash :: ns)
          have hc : coverage true (star :: star :: slash :: star :: star :: slash :: ns) =
              coverage true (star :: star :: slash :: ns) := by
            rw [coverage_dirs, coverage_dirs, ← mul_assoc, dirs_mul_dirs]
          rw [hout, ← mem_coverage, ← mem_coverage, hc,
            onlyDirs_cons (star :: star :: slash :: ns)]
          simp
    · cases ns with
      | nil =>
        refine ⟨[.dirsBefore], by simp [build], fun s => ?_⟩
        exact ⟨fun _ => Or.inr ⟨0, rfl⟩, fun _ => Or.inl rfl⟩
      | cons n ns =>
        obtain ⟨out, hout, ho, hlang⟩ :=
          build_past hv ha hready (fun h => hd h.2) fun _ _ hv' ha' => builds_on hv' ha'
        refine ⟨out, hout, fun s => ?_⟩
        have hn : ¬ OnlyDirs (star :: star :: slash :: n :: ns) := by
          rw [onlyDirs_cons]
          rintro (h | h)
          · cases h
          · exact hd h.startsDirs
        have hcov : language out = coverage true (star :: star :: slash :: n :: ns) := by
          rw [hlang, coverage_dirs]
          simp [Token.language]
        rw [Accepted, or_iff_right ho, or_iff_left hn, hcov, mem_coverage]

lemma parse_text {ns : List Node} (hv : ∀ n ∈ ns, n.Valid false)
    (ha : starsApart 0 (nodePieces ns) = true) :
    ∃ out, parse (text ns) = .ok out ∧
      ∀ s, Accepted out s ↔ Covers true ns s ∨ OnlyDirs ns := by
  rw [parse_eq, pieces_text hv]
  dsimp only
  by_cases hd : StartsDirs ns
  · rcases hd with rfl | ⟨ns, rfl⟩
    · refine ⟨_, build_dirsLast (Or.inl rfl), fun s => ?_⟩
      exact ⟨fun _ => Or.inl (.dirsLast s), fun _ => Or.inl rfl⟩
    · obtain ⟨out, hb, hout⟩ := build_dirsBefore (valid_right hv) (starsApart_right hv ha)
      refine ⟨out, ?_, hout⟩
      change build none none [] []
        (.plain '*' :: .plain '*' :: .plain '/' :: nodePieces ns) = .ok out
      rw [build_dirs (Or.inl rfl), if_pos rfl, hb]
  · have hn : ¬ OnlyDirs ns := fun h => hd h.startsDirs
    have hready : Ready true none [] := ⟨by simp, by simp⟩
    cases ns with
    | nil =>
      refine ⟨[], by simp [build], fun s => ?_⟩
      rw [Accepted, or_iff_right (by simp), or_iff_left hn, ← mem_coverage, coverage_nil,
        language_nil]
    | cons n ns =>
      obtain ⟨out, hout, ho, hlang⟩ :=
        build_past hv ha hready (fun h => hd h.2) fun _ _ hv' ha' => builds_on hv' ha'
      refine ⟨out, hout, fun s => ?_⟩
      have hcov : language out = coverage true (n :: ns) := by
        rw [hlang]
        simp
      rw [Accepted, or_iff_right ho, or_iff_left hn, hcov, mem_coverage]

end PathSieve.Glob
