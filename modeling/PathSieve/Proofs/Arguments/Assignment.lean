import PathSieve.Proofs.Arguments.Number
import PathSieve.Proofs.Arguments.Reading

namespace PathSieve.Arguments

abbrev Filled := { s : Bytes // s ≠ [] }

inductive Assignment where
  | policy (kind : Policy.Kind)
  | maxDepth (depth : Fin numberLimit)
  | lister (kind : Lister)
  | config (path : Filled)
  | stdin
  | sort
  | noDiagnostics
  deriving DecidableEq

namespace Assignment

def parameter : Assignment → Parameter
  | policy _ => .policy
  | maxDepth _ => .maxDepth
  | lister _ => .lister
  | config _ => .config
  | stdin => .stdin
  | sort => .sort
  | noDiagnostics => .noDiagnostics

def apply (arguments : Arguments) : Assignment → Arguments
  | policy kind => { arguments with policy := some kind }
  | maxDepth depth => { arguments with maxDepth := depth }
  | lister kind => { arguments with lister := kind }
  | config path => { arguments with settings := some path.val }
  | stdin => { arguments with fromInput := true }
  | sort => { arguments with isSorted := true }
  | noDiagnostics => { arguments with noDiagnostics := true }

/-- The bytes of the value. A depth may be written with any digits that stand for it, and a sign. -/
inductive HasValue : Assignment → Option Bytes → Prop
  | policy (kind : Policy.Kind) : HasValue (.policy kind) (some (Utf8.encode kind.name))
  | maxDepth {digits : Text} {depth : Fin numberLimit} :
      Text.ofDecimal? digits = some depth.val →
      HasValue (.maxDepth depth) (some (Utf8.encode digits))
  | signed {digits : Text} {depth : Fin numberLimit} :
      Text.ofDecimal? digits = some depth.val →
      HasValue (.maxDepth depth) (some (Utf8.encode ('+' :: digits)))
  | lister (kind : Lister) : HasValue (.lister kind) (some (Utf8.encode kind.name))
  | config (path : Filled) : HasValue (.config path) (some path.val)
  | stdin : HasValue .stdin none
  | sort : HasValue .sort none
  | noDiagnostics : HasValue .noDiagnostics none

def Written (a : Assignment) (words : List Bytes) : Prop :=
  ∃ value, a.HasValue value ∧ Spelled a.parameter value words

variable {a b : Assignment}

lemma apply_comm (h : a.parameter ≠ b.parameter) (arguments : Arguments) :
    b.apply (a.apply arguments) = a.apply (b.apply arguments) := by
  cases a <;> cases b <;> first | rfl | exact absurd rfl h

lemma foldl_apply_of_perm {as bs : List Assignment} (h : as.Perm bs)
    (hnodup : (as.map parameter).Nodup) (arguments : Arguments) :
    as.foldl apply arguments = bs.foldl apply arguments := by
  refine h.foldl_eq' (fun a ha b hb arguments => ?_) arguments
  by_cases hab : a.parameter = b.parameter
  · rw [List.inj_on_of_nodup_map hnodup ha hb hab]
  · exact apply_comm hab arguments

lemma named_encode {α : Type} {ofName? : Text → Option α} {p : Parameter} {name : Text} {x : α}
    (hne : name ≠ []) (h : ofName? name = some x) : named ofName? p (Utf8.encode name) = .ok x := by
  have hfilled : nonempty p (Utf8.encode name) = .ok (Utf8.encode name) := by
    rw [nonempty, Utf8.isEmpty_encode, if_neg (by simpa using hne)]
  have hname : (Utf8.decode? (Utf8.encode name)).bind ofName? = some x := by
    rw [Utf8.decode?_encode, Option.bind_some, h]
  simp only [named, hfilled, bind, Except.bind, hname]
  rfl

lemma depth_encode {s : Text} {n : ℕ} (h : number s = .ok n) : depth (Utf8.encode s) = .ok n := by
  rw [depth, Utf8.decode?_encode]
  dsimp only
  rw [h]

lemma setValue_eq {value : Bytes} (h : a.HasValue (some value)) (arguments : Arguments) :
    setValue arguments a.parameter value = .ok (a.apply arguments) := by
  cases h with
  | policy kind =>
    have hkind : named Policy.Kind.ofName? .policy (Utf8.encode kind.name) = .ok kind := by
      cases kind <;> exact named_encode (by decide) rfl
    rw [parameter, setValue, hkind]
    rfl
  | maxDepth hdigits =>
    have hnumber := (number_of_decimal hdigits).trans (if_pos (Fin.is_lt _))
    rw [parameter, setValue, depth_encode hnumber]
    rfl
  | signed hdigits =>
    have hnumber := (number_of_signed hdigits).trans (if_pos (Fin.is_lt _))
    rw [parameter, setValue, depth_encode hnumber]
    rfl
  | lister kind =>
    have hkind : named Lister.ofName? .lister (Utf8.encode kind.name) = .ok kind := by
      cases kind <;> exact named_encode (by decide) rfl
    rw [parameter, setValue, hkind]
    rfl
  | config path =>
    change (nonempty .config path.val >>= _) = _
    rw [nonempty, if_neg (by simpa using path.property)]
    rfl

lemma setFlag_eq (h : a.HasValue none) (arguments : Arguments) :
    setFlag arguments a.parameter = a.apply arguments := by
  cases h <;> rfl

end Assignment

namespace Progress

def add (q : Progress) (a : Assignment) : Parsed Progress :=
  if a.parameter ∈ q.given then refuse (.repeated a.parameter)
  else .ok { q with arguments := a.apply q.arguments, given := a.parameter :: q.given }

variable {q : Progress} {a : Assignment}

lemma give_eq_add {value : Option Bytes} (h : a.HasValue value) :
    q.give a.parameter value = q.add a := by
  cases value with
  | none =>
    rw [give, take, Assignment.setFlag_eq h]
    rfl
  | some value =>
    rw [give, take, Assignment.setValue_eq h]
    rfl

lemma give_tooLarge {digits : Text} {n : ℕ} (hnew : .maxDepth ∉ q.given)
    (hdigits : Text.ofDecimal? digits = some n) (hn : numberLimit ≤ n) :
    q.give .maxDepth (some (Utf8.encode digits)) =
      refuse (.badNumber .maxDepth digits .tooLarge) := by
  have hvalue : setValue q.arguments .maxDepth (Utf8.encode digits) =
      refuse (.badNumber .maxDepth digits .tooLarge) := by
    rw [setValue, depth, Utf8.decode?_encode]
    dsimp only
    rw [number_of_decimal hdigits, if_neg (Nat.not_lt.mpr hn)]
    rfl
  rw [give, take, if_neg hnew, hvalue]
  rfl

lemma readAs_written {words : List Bytes} (h : a.Written words) : ReadAs words (·.add a) := by
  obtain ⟨value, hvalue, hspelled⟩ := h
  have hflag : a.parameter ≠ .help ∧ a.parameter ≠ .version := by cases a <;> exact ⟨nofun, nofun⟩
  have hread := readAs_spelled hspelled hflag
  simpa only [give_eq_add hvalue] using hread

lemma readAs_flatten {as : List Assignment} {pieces : List (List Bytes)}
    (h : List.Forall₂ Assignment.Written as pieces) :
    ReadAs pieces.flatten (as.foldlM add ·) := by
  induction h with
  | nil => exact readAs_nil
  | cons ha _ ih => exact (readAs_written ha).append ih

variable {as : List Assignment}

lemma foldlM_add (hnodup : (as.map Assignment.parameter).Nodup)
    (hnew : ∀ a ∈ as, a.parameter ∉ q.given) :
    as.foldlM add q = .ok { q with
      arguments := as.foldl Assignment.apply q.arguments
      given := (as.map Assignment.parameter).reverse ++ q.given } := by
  induction as generalizing q with
  | nil => rfl
  | cons a as ih =>
    rw [List.map_cons, List.nodup_cons] at hnodup
    rw [List.forall_mem_cons] at hnew
    rw [List.foldlM_cons, add, if_neg hnew.1]
    refine (ih hnodup.2 fun b hb => ?_).trans ?_
    · exact List.not_mem_cons_of_ne_of_not_mem
        (fun hba => hnodup.1 (hba ▸ List.mem_map_of_mem hb)) (hnew.2 b hb)
    · simp

lemma foldlM_add_repeated (hnodup : (as.map Assignment.parameter).Nodup)
    (ha : a.parameter ∈ as.map Assignment.parameter) (after : List Assignment) :
    (as ++ a :: after).foldlM add {} = refuse (.repeated a.parameter) := by
  rw [List.foldlM_append, foldlM_add hnodup fun _ _ => List.not_mem_nil]
  change (add _ a >>= (after.foldlM add ·)) = _
  rw [add, if_pos (by simpa using ha)]
  rfl

-- Wherever a parameter is assigned once more, the second of the two assignments is refused.
lemma foldlM_add_again {before after : List Assignment}
    (hnodup : ((before ++ after).map Assignment.parameter).Nodup)
    (ha : a.parameter ∈ (before ++ after).map Assignment.parameter) :
    (before ++ a :: after).foldlM add {} = refuse (.repeated a.parameter) := by
  rw [List.map_append] at hnodup ha
  have hbefore : (before.map Assignment.parameter).Nodup := hnodup.of_append_left
  rcases List.mem_append.mp ha with ha | ha
  · exact foldlM_add_repeated hbefore ha after
  -- The added one comes first, so it is taken in and the one that was there before is refused.
  · obtain ⟨b, hb, hba⟩ := List.mem_map.mp ha
    obtain ⟨middle, rest, rfl⟩ := List.append_of_mem hb
    have hfirst : ((before ++ a :: middle).map Assignment.parameter).Nodup := by
      rw [List.map_append, List.map_cons, hba, ← List.append_assoc, List.nodup_middle] at hnodup
      rw [List.map_append, List.map_cons, List.nodup_middle]
      exact hnodup.sublist ((List.sublist_append_left _ _).cons_cons _)
    have hagain : b.parameter ∈ (before ++ a :: middle).map Assignment.parameter := by simp [hba]
    have hrepeated := foldlM_add_repeated hfirst hagain rest
    rwa [hba, List.append_assoc] at hrepeated

lemma foldlM_add_tooLarge {digits : Text} {n : ℕ} (hnodup : (as.map Assignment.parameter).Nodup)
    (hnew : .maxDepth ∉ as.map Assignment.parameter) (hdigits : Text.ofDecimal? digits = some n)
    (hn : numberLimit ≤ n) (after : List Assignment) :
    (as.foldlM add {} >>= fun q =>
        q.give .maxDepth (some (Utf8.encode digits)) >>= (after.foldlM add ·)) =
      refuse (.badNumber .maxDepth digits .tooLarge) := by
  rw [foldlM_add hnodup fun _ _ => List.not_mem_nil]
  change (give _ .maxDepth (some (Utf8.encode digits)) >>= (after.foldlM add ·)) = _
  rw [give_tooLarge (by simpa using hnew) hdigits hn]
  rfl

end Progress

end PathSieve.Arguments
