import PathSieve.Proofs.Glob.Literal

namespace PathSieve.Glob

variable {ts : List Token}

lemma literals?_eq_some {w : Text} : literals? ts = some w ↔ ts = literals w := by
  constructor
  · intro h
    induction ts generalizing w with
    | nil =>
      obtain rfl := Option.some.inj h
      rfl
    | cons t ts ih =>
      cases t with
      | literal c =>
        obtain ⟨v, hv, rfl⟩ := Option.map_eq_some_iff.mp h
        rw [literals_cons, ← ih hv]
      | _ => cases h
  · rintro rfl
    exact literals?_literals w

lemma literals?_filter_eq_some {p : Text → Bool} {w : Text} :
    (literals? ts).filter p = some w ↔ ts = literals w ∧ p w = true := by
  rw [Option.filter_eq_some_iff, literals?_eq_some]

lemma exists_getLast?_literals {w : Text} (h : w ≠ []) (ts : List Token) :
    ∃ c, (ts ++ literals w).getLast? = some (.literal c) := by
  obtain ⟨w, c, rfl⟩ := (List.eq_nil_or_concat' w).resolve_left h
  refine ⟨c, ?_⟩
  rw [literals, List.map_append, ← List.append_assoc]
  exact List.getLast?_concat

namespace Method

inductive Decides : Method → List Token → Prop
  | name {s : Text} : s ≠ [] → Decides (name s) (.dirsBefore :: literals s)
  | whole {s : Text} : s ≠ [] → Decides (whole s) (literals s)
  | extension {s : Text} {before : List Token} : before.Sublist [.dirsBefore] →
      Decides (extension ('.' :: s)) (before ++ .anyRun :: literals ('.' :: s))
  | front {s : Text} : s ≠ [] → Decides (front s) (literals s ++ [.anyRun])
  | frontDirs {s : Text} : Decides (front (s ++ ['/'])) (literals s ++ [.allBelow])
  | back {s : Text} {before : List Token} : s ≠ [] → before.Sublist [.dirsBefore, .anyRun] →
      Decides (back s false) (before ++ literals s)
  | backDirs {s : Text} : s ≠ [] → Decides (back ('/' :: s) true) (.dirsBefore :: literals s)
  | extensionAnd {s : Text} {ts : List Token} {c : Char} : ts.getLast? = some (.literal c) →
      Decides (extensionAnd s) ts
  | nameExpression {ts : List Token} : (∀ t ∈ ts, isInName t = true) →
      Decides nameExpression (.dirsBefore :: ts)
  | expression (ts : List Token) : Decides expression ts

lemma exists_afterDirs (ts : List Token) :
    ∃ before : List Token, before.Sublist [.dirsBefore] ∧ ts = before ++ afterDirs ts := by
  rw [afterDirs.eq_def]
  split
  · exact ⟨[.dirsBefore], .refl _, rfl⟩
  · exact ⟨[], List.nil_sublist _, rfl⟩

lemma decides_name {s : Text} (h : name? ts = some s) : (name s).Decides ts := by
  rw [name?.eq_def] at h
  split at h
  · obtain ⟨rfl, hs⟩ := literals?_filter_eq_some.mp h
    exact .name (by rintro rfl; simp at hs)
  · cases h

lemma decides_whole {s : Text} (h : whole? ts = some s) : (whole s).Decides ts := by
  obtain ⟨rfl, hs⟩ := literals?_filter_eq_some.mp h
  exact .whole (by rintro rfl; cases hs)

lemma decides_extension {s : Text} (h : extension? ts = some s) : (extension s).Decides ts := by
  rw [extension?] at h
  split at h
  · rename_i us hts
    obtain ⟨v, hv, rfl⟩ := Option.map_eq_some_iff.mp h
    obtain ⟨rfl, -⟩ := literals?_filter_eq_some.mp hv
    obtain ⟨before, hbefore, hall⟩ := exists_afterDirs ts
    rw [hall, hts]
    exact .extension hbefore
  · cases h

lemma decides_front {s : Text} (h : front? ts = some s) : (front s).Decides ts := by
  rw [front?] at h
  split at h
  · rename_i hlast
    obtain ⟨hts, hs⟩ := literals?_filter_eq_some.mp h
    rw [← List.dropLast_append_getLast? _ hlast, hts]
    exact .front (by rintro rfl; cases hs)
  · rename_i hlast
    obtain ⟨v, hv, rfl⟩ := Option.map_eq_some_iff.mp h
    rw [← List.dropLast_append_getLast? _ hlast, literals?_eq_some.mp hv]
    exact .frontDirs
  · cases h

lemma decides_back {s : Text} {isComponents : Bool} (h : back? ts = some (s, isComponents)) :
    (back s isComponents).Decides ts := by
  rw [back?.eq_def] at h
  split at h
  · obtain ⟨v, hv, hs⟩ := Option.map_eq_some_iff.mp h
    obtain ⟨rfl, rfl⟩ := Prod.mk.inj hs
    rw [literals?_eq_some.mp hv, ← literals_cons]
    exact .backDirs (List.cons_ne_nil _ _)
  · obtain ⟨v, hv, hs⟩ := Option.map_eq_some_iff.mp h
    obtain ⟨rfl, rfl⟩ := Prod.mk.inj hs
    obtain ⟨hts, hne⟩ := literals?_filter_eq_some.mp hv
    have hs : v ≠ [] := by
      rintro rfl
      simp at hne
    obtain ⟨before, hbefore, hall⟩ := exists_afterDirs ts
    rw [hall]
    split at hts
    · rename_i hrun
      rw [hrun, hts, List.append_cons]
      exact .back hs (hbefore.append_right [.anyRun])
    · rw [hts]
      exact .back hs (hbefore.trans (List.sublist_append_left _ _))

lemma decides_extensionAnd {s : Text} (h : lastExtension? ts.reverse = some s) :
    (extensionAnd s).Decides ts := by
  rw [lastExtension?.eq_def] at h
  split at h
  · rename_i c us hts
    refine .extensionAnd (c := c) ?_
    rw [← List.head?_reverse, hts]
    rfl
  · cases h

lemma decides_nameExpression (h : isNameExpression ts = true) : nameExpression.Decides ts := by
  rw [isNameExpression.eq_def] at h
  split at h
  · rw [Bool.and_eq_true, List.all_eq_true] at h
    exact .nameExpression h.2
  · cases h

lemma decides_ofTokens (ts : List Token) : (ofTokens ts).Decides ts := by
  rcases (Option.getD_eq_iff (b := ofTokens ts)).mp rfl with h | ⟨-, h⟩
  · simp only [Option.orElse_eq_some, Option.map_eq_some_iff] at h
    obtain ⟨s, hs, hm⟩ | ⟨-, ⟨s, hs, hm⟩ | ⟨-, ⟨s, hs, hm⟩ | ⟨-, ⟨s, hs, hm⟩ |
      ⟨-, ⟨⟨s, b⟩, hs, hm⟩ | ⟨-, s, hs, hm⟩⟩⟩⟩⟩ := h
    · exact hm ▸ decides_name hs
    · exact hm ▸ decides_whole hs
    · exact hm ▸ decides_extension hs
    · exact hm ▸ decides_front hs
    · exact hm ▸ decides_back hs
    · exact hm ▸ decides_extensionAnd hs
  · rw [← h]
    split_ifs with hexpr
    · exact decides_nameExpression hexpr
    · exact .expression ts

lemma getLast?_of_isByName (h : (ofTokens ts).isByName = true) :
    ∃ c, ts.getLast? = some (.literal c) := by
  have hd := decides_ofTokens ts
  generalize ofTokens ts = m at h hd
  cases hd with
  | name hs => exact exists_getLast?_literals hs [.dirsBefore]
  | @extension s before =>
    rw [List.append_cons]
    exact exists_getLast?_literals (List.cons_ne_nil '.' s) (before ++ [.anyRun])
  | extensionAnd hlast => exact ⟨_, hlast⟩
  | _ => cases h

lemma isExpression_of_choice {bs : List (List Token)} (h : .choice bs ∈ ts) :
    (ofTokens ts).needsExtension = true ∨ ofTokens ts = expression := by
  have hd := decides_ofTokens ts
  generalize ofTokens ts = m at hd
  cases hd with
  | extensionAnd => exact Or.inl rfl
  | expression => exact Or.inr rfl
  | extension hbefore =>
    rcases List.mem_append.mp h with h | h
    · simpa using hbefore.subset h
    · simp [choice_notMem_literals] at h
  | back _ hbefore =>
    rcases List.mem_append.mp h with h | h
    · simpa using hbefore.subset h
    · exact absurd h (choice_notMem_literals _ bs)
  | nameExpression hts =>
    rcases List.mem_cons.mp h with h | h
    · cases h
    · cases hts _ h
  | name | whole | front | frontDirs | backDirs => simp [choice_notMem_literals] at h

end Method

end PathSieve.Glob
