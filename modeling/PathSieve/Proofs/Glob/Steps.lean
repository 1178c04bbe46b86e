import PathSieve.Proofs.Glob.Meaning

namespace PathSieve.Glob

def Letter.last : Letter → Char
  | plain c => c
  | escaped c => c
  | members _ => ']'

variable {fault : Option Fault} {prev : Option Char} {groups : List Group} {ts : List Token}

lemma not_pair (c : Char) (rest : List Piece)
    (h : ¬ (c = '*' ∧ rest.head? = some (.plain '*'))) :
    (∀ r, rest = .plain '*' :: .plain '/' :: r → c = '*' → False) ∧
      ∀ r, rest = .plain '*' :: r → c = '*' → False := by
  constructor
  · rintro r rfl rfl
    exact h ⟨rfl, rfl⟩
  · rintro r rfl rfl
    exact h ⟨rfl, rfl⟩

lemma build_open (rest : List Piece) :
    build fault prev groups ts (.plain '\x7b' :: rest) =
      build fault (some '\x7b') (⟨ts, []⟩ :: groups) [] rest := by
  obtain ⟨h1, h2⟩ := not_pair '\x7b' rest (by simp)
  cases groups with
  | nil => simp [build.eq_5 _ _ _ _ _ h1 h2]
  | cons g groups => simp [build.eq_6 _ _ _ _ _ _ _ h1 h2]

lemma build_close (g : Group) (rest : List Piece) :
    build fault prev (g :: groups) ts (.plain '\x7d' :: rest) =
      build fault (some '\x7d') groups
        (.choice ((ts.reverse :: g.branches).reverse) :: g.outer) rest := by
  obtain ⟨h1, h2⟩ := not_pair '\x7d' rest (by simp)
  simp [build.eq_6 _ _ _ _ _ _ _ h1 h2]

lemma build_comma (g : Group) (rest : List Piece) :
    build fault prev (g :: groups) ts (.plain ',' :: rest) =
      build fault (some ',') (⟨g.outer, ts.reverse :: g.branches⟩ :: groups) [] rest := by
  obtain ⟨h1, h2⟩ := not_pair ',' rest (by simp)
  simp [build.eq_6 _ _ _ _ _ _ _ h1 h2]

lemma build_letter {l : Letter} {rest : List Piece} (hopen : l ≠ .plain '\x7b')
    (hclose : l ≠ .plain '\x7d') (hcomma : groups ≠ [] → l ≠ .plain ',')
    (hstar : ¬ (l = .plain '*' ∧ rest.head? = some (.plain '*'))) :
    build fault prev groups ts (l.piece :: rest) =
      build fault (some l.last) groups (l.token :: ts) rest := by
  cases l with
  | plain c =>
    simp only [ne_eq, Letter.plain.injEq] at hopen hclose hcomma hstar
    obtain ⟨h1, h2⟩ := not_pair c rest hstar
    rw [Letter.piece, Letter.token, Letter.last]
    cases groups with
    | nil =>
      rw [build.eq_5 _ _ _ _ _ h1 h2, if_neg hopen, if_neg hclose, ite_self]
      split_ifs <;> rfl
    | cons g groups =>
      rw [build.eq_6 _ _ _ _ _ _ _ h1 h2, if_neg hopen, if_neg hclose,
        if_neg (hcomma (List.cons_ne_nil g groups))]
      split_ifs <;> rfl
  | escaped c => rw [Letter.piece, build]; rfl
  | members k => rw [Letter.piece, build]; rfl

lemma stars_runs {p : Piece} (hp : p ≠ .plain '/') (atStart : Bool) (rest : List Piece) :
    Stars.of prev false atStart (p :: rest) = .twoRuns := by
  cases p with
  | plain c =>
    have hc : c ≠ '/' := by
      rintro rfl
      exact hp rfl
    simp only [Stars.of, List.head?_cons, Bool.false_and, Bool.or_false, decide_eq_true_eq]
    split <;> split <;> simp_all
  | escaped c => simp [Stars.of]
  | members k ranges => simp [Stars.of]

lemma stars_notFresh {atStart : Bool} (ha : atStart = false) (hp : prev ≠ some '/')
    (rest : List Piece) : Stars.of prev false atStart rest = .twoRuns := by
  simp [Stars.of, ha, hp]

lemma build_runs {rest : List Piece}
    (h : ts = [] ∨ prev = some '/' → ∃ p ps, rest = p :: ps ∧ p ≠ .plain '/') :
    build fault prev [] ts (.plain '*' :: .plain '*' :: rest) =
      build fault (some '*') [] (.anyRun :: .anyRun :: ts) rest := by
  by_cases hf : ts = [] ∨ prev = some '/'
  · obtain ⟨p, ps, rfl, hp⟩ := h hf
    rw [build.eq_4 _ _ _ _ _ (by simpa using hp)]
    simp [stars_runs hp, Stars.apply]
  · obtain ⟨h1, h2⟩ := not_or.mp hf
    have ha : ts.isEmpty = false := by simpa using h1
    by_cases hs : ∃ r, rest = .plain '/' :: r
    · obtain ⟨r, rfl⟩ := hs
      have hl : build fault (some '*') [] (.anyRun :: .anyRun :: ts) (.plain '/' :: r) =
          build fault (some '/') [] (.literal '/' :: .anyRun :: .anyRun :: ts) r :=
        build_letter (l := .plain '/') (by simp) (by simp) (by simp) (by simp)
      rw [build.eq_3]
      simp only [List.isEmpty_nil, Bool.not_true, stars_notFresh ha h2, Stars.takesSlash,
        Stars.apply]
      exact hl.symm
    · rw [build.eq_4 _ _ _ _ _ (fun r hr => hs ⟨r, hr⟩)]
      simp [stars_notFresh ha h2, Stars.apply]

lemma build_dirsLast (hp : ts = [] ∨ prev = some '/') :
    build none prev [] ts [.plain '*', .plain '*'] =
      .ok (if ts = [] then [.dirsBefore] else (joinDirs true ts).reverse) := by
  rw [build.eq_4 _ _ _ _ _ (by simp), build_nil]
  cases ts with
  | nil => rfl
  | cons t ts =>
    have hp' : prev = some '/' := by simpa using hp
    simp [Stars.of, hp', Stars.apply]

lemma build_dirs {rest : List Piece} (hp : ts = [] ∨ prev = some '/') :
    build fault prev [] ts (.plain '*' :: .plain '*' :: .plain '/' :: rest) =
      build fault (some '/') []
        (if ts = [] then [.dirsBefore] else joinDirs false ts) rest := by
  rw [build.eq_3]
  cases ts with
  | nil => rfl
  | cons t ts =>
    have hp' : prev = some '/' := by simpa using hp
    simp [Stars.of, hp', Stars.apply, Stars.takesSlash]

end PathSieve.Glob
