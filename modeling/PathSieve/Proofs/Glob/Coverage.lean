import PathSieve.Proofs.Glob.Meaning

namespace PathSieve.Glob

def coverage (fresh : Bool) (ns : List Node) : Language UInt8 := {s | Covers fresh ns s}

lemma mem_coverage {fresh : Bool} {ns : List Node} {s : Bytes} :
    s ∈ coverage fresh ns ↔ Covers fresh ns s := Iff.rfl

lemma coverage_nil (fresh : Bool) : coverage fresh [] = 1 := by
  ext s
  rw [mem_coverage, Language.mem_one]
  constructor
  · rintro ⟨⟩
    rfl
  · rintro rfl
    exact .nil

lemma coverage_node {fresh : Bool} {n : Node} {ns : List Node}
    (h : ¬ (fresh = true ∧ StartsDirs (n :: ns))) :
    coverage fresh (n :: ns) = n.token.language * coverage n.isSlash ns := by
  ext s
  rw [mem_coverage, Language.mem_mul]
  constructor
  · intro hc
    cases hc with
    | node _ hn ht => exact ⟨_, (Node.fits_iff n _).mp hn, _, ht, rfl⟩
    | dirsLast => exact absurd ⟨rfl, Or.inl rfl⟩ h
    | dirsNone => exact absurd ⟨rfl, Or.inr (List.prefix_append [star, star, slash] _)⟩ h
    | dirsSome => exact absurd ⟨rfl, Or.inr (List.prefix_append [star, star, slash] _)⟩ h
  · rintro ⟨x, hx, y, hy, rfl⟩
    exact .node h ((Node.fits_iff n x).mpr hx) hy

lemma coverage_dirsLast : coverage true [star, star] = ⊤ := by
  ext s
  exact ⟨fun _ => trivial, fun _ => .dirsLast s⟩

lemma mem_dirs {s : Bytes} : s ∈ dirs ↔ s = [] ∨ ∃ t, s = t ++ [Path.slash] := by
  rw [dirs, Language.mem_add, Language.mem_one, Language.mem_mul]
  refine or_congr_right ?_
  constructor
  · rintro ⟨t, -, _, rfl, rfl⟩
    exact ⟨t, rfl⟩
  · rintro ⟨t, rfl⟩
    exact ⟨t, trivial, _, rfl, rfl⟩

lemma coverage_dirs (ns : List Node) :
    coverage true (star :: star :: slash :: ns) = dirs * coverage true ns := by
  ext s
  rw [mem_coverage, Language.mem_mul]
  constructor
  · intro h
    cases h with
    | node h => exact absurd ⟨rfl, Or.inr (List.prefix_append [star, star, slash] ns)⟩ h
    | dirsNone h => exact ⟨[], mem_dirs.mpr (Or.inl rfl), s, h, rfl⟩
    | dirsSome x h => exact ⟨x ++ [Path.slash], mem_dirs.mpr (Or.inr ⟨x, rfl⟩), _, h, by simp⟩
  · rintro ⟨x, hx, y, hy, rfl⟩
    rcases mem_dirs.mp hx with rfl | ⟨t, rfl⟩
    · exact .dirsNone hy
    · rw [List.append_assoc]
      exact .dirsSome t hy

lemma dirs_mul_top : dirs * ⊤ = ⊤ := by
  ext s
  exact ⟨fun _ => trivial, fun _ => ⟨[], mem_dirs.mpr (Or.inl rfl), s, trivial, rfl⟩⟩

lemma dirs_mul_dirs : dirs * dirs = dirs := by
  have h : dirs * (⊤ * slashWord) = ⊤ * slashWord := by rw [← mul_assoc, dirs_mul_top]
  calc dirs * dirs = dirs * (1 + ⊤ * slashWord) := rfl
    _ = dirs + ⊤ * slashWord := by rw [mul_add, mul_one, h]
    _ = 1 + (⊤ * slashWord + ⊤ * slashWord) := by rw [dirs, add_assoc]
    _ = dirs := by rw [Language.add_self, dirs]

lemma slash_language : (Token.literal '/').language = slashWord := by
  rw [Token.language]
  rfl

lemma join_language {t : Token} (ht : t = .literal '/' ∨ t = .dirsBetween) (us : List Token) :
    (joinDirs true (t :: us) = .allBelow :: us ∧
        Token.allBelow.language = t.language * ⊤) ∧
      joinDirs false (t :: us) = .dirsBetween :: us ∧
        Token.dirsBetween.language = t.language * dirs := by
  rcases ht with rfl | rfl
  · refine ⟨⟨rfl, ?_⟩, rfl, ?_⟩
    · rw [slash_language, Token.language]
    · rw [slash_language, Token.language]
  · refine ⟨⟨rfl, ?_⟩, rfl, ?_⟩
    · rw [Token.language, Token.language, mul_assoc, dirs_mul_top]
    · rw [Token.language, mul_assoc, dirs_mul_dirs]

lemma OnlyDirs.cons {ns : List Node} (h : OnlyDirs ns) :
    OnlyDirs (star :: star :: slash :: ns) := by
  obtain ⟨n, rfl⟩ := h
  exact ⟨n + 1, rfl⟩

lemma onlyDirs_cons (ns : List Node) :
    OnlyDirs (star :: star :: slash :: ns) ↔ ns = [] ∨ OnlyDirs ns := by
  constructor
  · rintro ⟨n, hn⟩
    rw [List.replicate_succ, List.flatten_cons] at hn
    have hparts : [star, star, slash] ++ ns =
        [star, star, slash] ++ (List.replicate n [star, star, slash]).flatten := hn
    obtain rfl := List.append_cancel_left hparts
    cases n with
    | zero => exact Or.inl rfl
    | succ n => exact Or.inr ⟨n, rfl⟩
  · rintro (rfl | h)
    · exact ⟨0, rfl⟩
    · exact h.cons

lemma OnlyDirs.startsDirs {ns : List Node} (h : OnlyDirs ns) : StartsDirs ns := by
  obtain ⟨n, rfl⟩ := h
  rw [List.replicate_succ, List.flatten_cons]
  exact Or.inr (List.prefix_append _ _)

end PathSieve.Glob
