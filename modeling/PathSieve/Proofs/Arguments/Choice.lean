import PathSieve.Proofs.Arguments.Assignment

namespace PathSieve.Arguments

structure Choice where
  policy : Option Policy.Kind
  maxDepth : Option (Fin numberLimit)
  lister : Option Lister
  fromInput : Bool
  isSorted : Bool
  settings : Option Filled
  noDiagnostics : Bool
  directory : Filled
  lister_eq_none : fromInput = true → lister = none

namespace Choice

variable (choice : Choice)

def assigned : Parameter → Option Assignment
  | .policy => choice.policy.map .policy
  | .maxDepth => choice.maxDepth.map .maxDepth
  | .lister => choice.lister.map .lister
  | .stdin => if choice.fromInput then some .stdin else none
  | .sort => if choice.isSorted then some .sort else none
  | .config => choice.settings.map .config
  | .noDiagnostics => if choice.noDiagnostics then some .noDiagnostics else none
  | .help | .version | .directory => none

def assignments : List Assignment := Parameter.all.filterMap choice.assigned

def arguments : Arguments where
  policy := choice.policy
  maxDepth := (choice.maxDepth.map Fin.val).getD 2
  lister := choice.lister.getD .walk
  fromInput := choice.fromInput
  isSorted := choice.isSorted
  settings := choice.settings.map Subtype.val
  noDiagnostics := choice.noDiagnostics
  directory := choice.directory

variable {choice} {p : Parameter} {a : Assignment}

lemma parameter_of_assigned (h : choice.assigned p = some a) : a.parameter = p := by
  cases p with
  | policy | maxDepth | lister | config =>
    obtain ⟨_, _, rfl⟩ := Option.map_eq_some_iff.mp h
    rfl
  | stdin | sort | noDiagnostics =>
    obtain ⟨_, ha⟩ := Option.ite_none_right_eq_some.mp h
    cases ha
    rfl
  | help | version | directory => cases h

lemma map_parameter_assignments : choice.assignments.map Assignment.parameter =
    Parameter.all.filter fun p => (choice.assigned p).isSome := by
  rw [assignments, List.map_filterMap, ← List.filterMap_eq_filter]
  refine List.filterMap_congr fun p _ => ?_
  cases h : choice.assigned p with
  | none => simp [Option.guard, h]
  | some a => simp [Option.guard, h, parameter_of_assigned h]

lemma nodup_assignments (choice : Choice) :
    (choice.assignments.map Assignment.parameter).Nodup := by
  rw [map_parameter_assignments]
  exact List.Nodup.filter _ (by decide)

lemma mem_parameters : p ∈ choice.assignments.map Assignment.parameter ↔
    (choice.assigned p).isSome := by
  rw [map_parameter_assignments, List.mem_filter]
  exact and_iff_right p.mem_all

def fill (choice : Choice) (arguments : Arguments) : Parameter → Arguments
  | .policy => { arguments with policy := choice.policy.or arguments.policy }
  | .maxDepth =>
    { arguments with maxDepth := (choice.maxDepth.map Fin.val).getD arguments.maxDepth }
  | .lister => { arguments with lister := choice.lister.getD arguments.lister }
  | .stdin => { arguments with fromInput := choice.fromInput || arguments.fromInput }
  | .sort => { arguments with isSorted := choice.isSorted || arguments.isSorted }
  | .config =>
    { arguments with settings := (choice.settings.map Subtype.val).or arguments.settings }
  | .noDiagnostics =>
    { arguments with noDiagnostics := choice.noDiagnostics || arguments.noDiagnostics }
  | .help | .version | .directory => arguments

lemma apply_assigned (arguments : Arguments) (p : Parameter) :
    (match choice.assigned p with
    | some a => a.apply arguments
    | none => arguments) = choice.fill arguments p := by
  cases p with
  | policy => cases h : choice.policy <;> simp [assigned, fill, h, Assignment.apply]
  | maxDepth => cases h : choice.maxDepth <;> simp [assigned, fill, h, Assignment.apply]
  | lister => cases h : choice.lister <;> simp [assigned, fill, h, Assignment.apply]
  | config => cases h : choice.settings <;> simp [assigned, fill, h, Assignment.apply]
  | stdin => cases h : choice.fromInput <;> simp [assigned, fill, h, Assignment.apply]
  | sort => cases h : choice.isSorted <;> simp [assigned, fill, h, Assignment.apply]
  | noDiagnostics => cases h : choice.noDiagnostics <;> simp [assigned, fill, h, Assignment.apply]
  | help | version | directory => rfl

lemma foldl_assigned (ps : List Parameter) (arguments : Arguments) :
    (ps.filterMap choice.assigned).foldl Assignment.apply arguments =
      ps.foldl choice.fill arguments := by
  induction ps generalizing arguments with
  | nil => rfl
  | cons p ps ih =>
    rw [List.filterMap_cons, List.foldl_cons, ← apply_assigned]
    cases choice.assigned p <;> exact ih _

lemma foldl_assignments : choice.assignments.foldl Assignment.apply {} =
    { choice.arguments with directory := Utf8.encode ['.'] } := by
  rw [assignments, foldl_assigned]
  simp [Parameter.all, fill, arguments]

end Choice

section Written

open Assignment Progress

variable {choice : Choice} {assignments : List Assignment}

lemma nodup_of_perm (horder : assignments.Perm choice.assignments) :
    (assignments.map parameter).Nodup :=
  (horder.map parameter).nodup_iff.mpr choice.nodup_assignments

lemma mem_of_perm (horder : assignments.Perm choice.assignments) {p : Parameter} :
    p ∈ assignments.map parameter ↔ (choice.assigned p).isSome :=
  (horder.map parameter).mem_iff.trans Choice.mem_parameters

lemma parse_choice {words : List Bytes} (horder : assignments.Perm choice.assignments)
    (hread : ReadAs words (assignments.foldlM add ·)) :
    parse (words ++ [dashes, choice.directory]) = .ok choice.arguments := by
  have hnodup := nodup_of_perm horder
  have harguments : assignments.foldl apply {} =
      { choice.arguments with directory := Utf8.encode ['.'] } :=
    (foldl_apply_of_perm horder hnodup {}).trans Choice.foldl_assignments
  have hadded := foldlM_add (q := {}) hnodup fun _ _ => List.not_mem_nil
  rw [List.append_nil, harguments] at hadded
  refine parse_ok hread hadded ?_ ?_ choice.directory.property
  · refine List.nodup_cons.mpr ⟨fun hmem => ?_, List.nodup_reverse.mpr hnodup⟩
    cases (mem_of_perm horder).mp (List.mem_reverse.mp hmem)
  · rintro ⟨hstdin, hlister⟩
    have hinput : (choice.assigned .stdin).isSome := (mem_of_perm horder).mp (by simpa using hstdin)
    have hlister : (choice.assigned .lister).isSome :=
      (mem_of_perm horder).mp (by simpa using hlister)
    have hnone : choice.lister = none :=
      choice.lister_eq_none (by simpa [Choice.assigned] using hinput)
    simp [Choice.assigned, hnone] at hlister

lemma exists_append_of_written {before after : List (List Bytes)}
    (h : List.Forall₂ Written assignments (before ++ after)) : ∃ as bs, as ++ bs = assignments ∧
      List.Forall₂ Written as before ∧ List.Forall₂ Written bs after :=
  ⟨assignments.take before.length, assignments.drop before.length, List.take_append_drop _ _,
    List.forall₂_take_append _ _ _ h, List.forall₂_drop_append _ _ _ h⟩

/-- However the arguments of a choice are spelled and ordered, they are parsed to its values. One of
its parameters with a value once more, wherever that stands, is refused as repeated, and a depth of
more than 64 bits as too large. -/
theorem parse_of_written (choice : Choice) {assignments : List Assignment}
    {pieces : List (List Bytes)} (horder : assignments.Perm choice.assignments)
    (hwritten : List.Forall₂ Written assignments pieces) :
    parse (pieces.flatten ++ [dashes, choice.directory]) = .ok choice.arguments ∧
    ∀ before after : List (List Bytes), before ++ after = pieces →
      (∀ (again : Assignment) (words : List Bytes), again.Written words →
        again.parameter ∈ choice.assignments.map parameter →
        parse ((before ++ words :: after).flatten ++ [dashes, choice.directory]) =
          refuse (.repeated again.parameter)) ∧
      ∀ (digits : Text) (n : ℕ) (words : List Bytes), choice.maxDepth = none →
        Text.ofDecimal? digits = some n → numberLimit ≤ n →
        Spelled .maxDepth (some (Utf8.encode digits)) words →
        parse ((before ++ words :: after).flatten ++ [dashes, choice.directory]) =
          refuse (.badNumber .maxDepth digits .tooLarge) := by
  refine ⟨parse_choice horder (readAs_flatten hwritten), ?_⟩
  rintro before after rfl
  have hnodup := nodup_of_perm horder
  obtain ⟨as, bs, rfl, hbefore, hafter⟩ := exists_append_of_written hwritten
  constructor
  · intro again words hagain hparameter
    rw [Choice.mem_parameters, ← mem_of_perm horder] at hparameter
    have hread := readAs_flatten (List.rel_append hbefore (hafter.cons hagain))
    exact parse_error hread (foldlM_add_again hnodup hparameter) _
  · intro digits n words hnone hdigits hn hspelled
    have hnew : .maxDepth ∉ (as ++ bs).map parameter := by
      rw [mem_of_perm horder, Choice.assigned, hnone]
      exact Bool.false_ne_true
    rw [List.map_append] at hnodup hnew
    have hread := (readAs_flatten hbefore).append
      ((readAs_spelled hspelled (by decide)).append (readAs_flatten hafter))
    have hrefused := foldlM_add_tooLarge hnodup.of_append_left
      (fun h => hnew (List.mem_append_left _ h)) hdigits hn bs
    rw [List.flatten_append, List.flatten_cons]
    exact parse_error hread hrefused _

def largest : Choice where
  policy := some .allowlist
  maxDepth := some ⟨18446744073709551615, by decide⟩
  lister := none
  fromInput := true
  isSorted := false
  settings := some ⟨Utf8.encode "--sort".toList, by decide⟩
  noDiagnostics := true
  directory := ⟨[hyphen, 0xFF], by decide⟩
  lister_eq_none _ := rfl

def found : Choice where
  policy := none
  maxDepth := none
  lister := some .find
  fromInput := false
  isSorted := false
  settings := none
  noDiagnostics := false
  directory := ⟨dashes, by decide⟩
  lister_eq_none := nofun

def word (s : String) : Bytes := Utf8.encode s.toList

def largestWords : List (List Bytes) :=
  [[word "-L18446744073709551615"], [word "--stdin"], [word "--config=--sort"],
    [word "-p", word "known-paths"], [word "--no-diagnostics"]]

lemma written_largest : List.Forall₂ Written
    [.maxDepth ⟨18446744073709551615, by decide⟩, .stdin, .config ⟨word "--sort", by decide⟩,
      .policy .allowlist, .noDiagnostics] largestWords := by
  have hdepth : Spelled .maxDepth (some (word "18446744073709551615"))
      [word "-L18446744073709551615"] :=
    .letterJoined (c := 'L') rfl rfl (by decide) (by decide)
  have hconfig : Spelled .config (some (word "--sort")) [word "--config=--sort"] :=
    .joined _ rfl (show Parameter.config.long? = some "config".toList from rfl)
  have hpolicy : Spelled .policy (some (word "known-paths")) [word "-p", word "known-paths"] :=
    .letterApart (c := 'p') rfl rfl (by decide)
  have hstdin : Spelled .stdin none [word "--stdin"] :=
    .flag rfl (show Parameter.stdin.long? = some "stdin".toList from rfl)
  have hplain : Spelled .noDiagnostics none [word "--no-diagnostics"] :=
    .flag rfl (show Parameter.noDiagnostics.long? = some "no-diagnostics".toList from rfl)
  exact .cons ⟨_, .maxDepth rfl, hdepth⟩ <| .cons ⟨_, .stdin, hstdin⟩ <|
    .cons ⟨_, .config _, hconfig⟩ <| .cons ⟨_, .policy _, hpolicy⟩ <|
    .cons ⟨_, .noDiagnostics, hplain⟩ .nil

theorem parse_of_written_orders :
    parse (largestWords.flatten ++ [dashes, [hyphen, 0xFF]]) = .ok largest.arguments ∧
    parse ((largestWords.take 3 ++ [word "--max-depth", word "07"] ::
        largestWords.drop 3).flatten ++ [dashes, [hyphen, 0xFF]]) = refuse (.repeated .maxDepth) ∧
    parse [word "-L", word "18446744073709551616", word "--lister=find", dashes, dashes] =
      refuse (.badNumber .maxDepth "18446744073709551616".toList .tooLarge) := by
  have hlister : Spelled .lister (some (word "find")) [word "--lister=find"] :=
    .joined _ rfl (show Parameter.lister.long? = some "lister".toList from rfl)
  have hagain : Spelled .maxDepth (some (word "07")) [word "--max-depth", word "07"] :=
    .apart rfl (show Parameter.maxDepth.long? = some "max-depth".toList from rfl) (by decide)
  have hlarge : Spelled .maxDepth (some (word "18446744073709551616"))
      [word "-L", word "18446744073709551616"] :=
    .letterApart (c := 'L') rfl rfl (by decide)
  have hlargest := parse_of_written largest (by decide) written_largest
  have hfound := parse_of_written found (List.Perm.refl _) (.cons ⟨_, .lister .find, hlister⟩ .nil)
  refine ⟨hlargest.1, ?_, ?_⟩
  · exact (hlargest.2 (largestWords.take 3) (largestWords.drop 3) rfl).1
      (.maxDepth ⟨7, by decide⟩) _ ⟨_, .maxDepth rfl, hagain⟩ (by decide)
  · exact (hfound.2 [] _ rfl).2 "18446744073709551616".toList 18446744073709551616 _ rfl rfl
      (by decide) hlarge

end Written

end PathSieve.Arguments
