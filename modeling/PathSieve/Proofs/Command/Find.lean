import PathSieve.Command.Program
import PathSieve.Proofs.Text.Utf8.Lines
import PathSieve.Proofs.Tree

namespace PathSieve.Command.Find

open PathSieve.Tree (Entry)

lemma digit?_digitChar :
    ∀ d < 10, ∃ b, Utf8.encode [Nat.digitChar d] = [b] ∧ digit? b = some d := by
  have h : ∀ d < 10, Utf8.encode [Nat.digitChar d] = [UInt8.ofNat (48 + d)] ∧
      digit? (UInt8.ofNat (48 + d)) = some d := by
    decide
  exact fun d hd => ⟨_, h d hd⟩

lemma exists_digits (n : ℕ) :
    ∃ ds, (Utf8.encode (Text.decimal n)).mapM digit? = some ds ∧
      ds.foldl (fun n d => n * 10 + d) 0 = n := by
  induction n using Nat.strongRecOn with
  | ind n ih =>
    rw [Text.decimal, Nat.toDigits_eq_if (by decide)]
    split_ifs with hn
    · obtain ⟨b, hb, hd⟩ := digit?_digitChar n hn
      refine ⟨[n], ?_, by simp⟩
      rw [hb]
      simp [hd]
    · obtain ⟨ds, hds, hvalue⟩ := ih (n / 10) (by omega)
      obtain ⟨b, hb, hd⟩ := digit?_digitChar (n % 10) (by omega)
      rw [Text.decimal] at hds
      refine ⟨ds ++ [n % 10], ?_, ?_⟩
      · rw [Utf8.encode_append, hb, List.mapM_append, hds]
        simp [hd]
      · rw [List.foldl_append, hvalue, List.foldl_cons, List.foldl_nil]
        omega

lemma number?_decimal (n : ℕ) : number? (Utf8.encode (Text.decimal n)) = some n := by
  obtain ⟨ds, hds, hvalue⟩ := exists_digits n
  have hne : (Utf8.encode (Text.decimal n)).isEmpty = false := by
    rw [Utf8.isEmpty_encode, Text.decimal, List.isEmpty_eq_false_iff]
    exact Nat.toDigits_ne_nil
  rw [number?, hne, if_neg Bool.false_ne_true, hds, Option.map_some, hvalue]

lemma depth_decimal (option : Text) {n : ℕ} (hn : n ≤ greatestDepth) :
    depth option (Utf8.encode (Text.decimal n)) = .ok n := by
  have hlt : greatestDepth < greatestNumber := by decide
  rw [depth, number?_decimal]
  dsimp only
  rw [if_neg (by omega), if_neg (by omega)]

lemma choose_maxDepth {n : ℕ} (hn : n ≤ greatestDepth) :
    choose {} [Utf8.encode "-maxdepth".toList, Utf8.encode (Text.decimal n)] =
      .ok { mostDepth := n } := by
  have hname : String.ofList (Path.display (Utf8.encode "-maxdepth".toList)) = "-maxdepth" := by
    rw [Path.display, Utf8.decodeLossy_encode, String.ofList_toList]
  rw [choose.eq_4 _ _ _ _ hname, depth_decimal _ hn]
  rfl

mutual

lemma path_entries (limit depth : ℕ) (root : Bytes) (names : List Bytes) (t : Tree)
    (ht : t.IsOpen) :
    (entries limit depth true (Path.spell root names) t).map (fun e => (e.path, e.isClosed)) =
      (t.entries (fun _ => true) (limit - depth) names).map
        fun e => (Path.spell root e.names, false) := by
  cases t with
  | file | link => rfl
  | directory es access =>
    obtain ⟨rfl, hes⟩ := Tree.isOpen_directory_iff.mp ht
    rw [entries, Tree.entries, List.map_cons, List.map_cons]
    simp only [Access.free, Bool.and_true, Bool.not_true, Bool.and_false, Bool.not_false,
      decide_eq_true_eq]
    refine congrArg _ ?_
    by_cases hdepth : depth < limit
    · rw [if_pos hdepth, if_pos ⟨by omega, trivial⟩, Nat.sub_sub]
      exact path_entriesOf limit (depth + 1) root names es hes
    · rw [if_neg hdepth, if_neg fun h => hdepth (by omega)]
      rfl

lemma path_entriesOf (limit depth : ℕ) (root : Bytes) (names : List Bytes)
    (es : List (Bytes × Tree)) (hes : ∀ e ∈ es, e.2.IsOpen) :
    (entriesOf limit depth true (Path.spell root names) es).map
        (fun e => (e.path, e.isClosed)) =
      (Tree.entriesOf (fun _ => true) (limit - depth) names es).map
        fun e => (Path.spell root e.names, false) := by
  match es with
  | [] => rfl
  | (name, t) :: es =>
    rw [List.forall_mem_cons] at hes
    rw [entriesOf, Tree.entriesOf, List.map_append, List.map_append, ← Path.spell_concat,
      path_entries limit depth root (names ++ [name]) t hes.1,
      path_entriesOf limit depth root names es hes.2]

end

lemma printed_maxDepth (called : Bytes) (n : ℕ) (root : Bytes) {t : Tree} (ht : t.IsOpen) :
    printed called { mostDepth := n } (entries n 0 true root t) =
      .success (Line.unsplit newline
        ((t.entries (fun _ => true) n []).map (Path.spell root ·.names))) := by
  have hboth : (entries n 0 true root t).map (fun e => (e.path, e.isClosed)) =
      (t.entries (fun _ => true) n []).map fun e => (Path.spell root e.names, false) :=
    path_entries n 0 root [] t ht
  have htakes : (entries n 0 true root t).filter (Choice.takes { mostDepth := n }) =
      entries n 0 true root t :=
    List.filter_eq_self.mpr fun e _ => by simp [Choice.takes]
  have hpath : (entries n 0 true root t).map (·.path) =
      (t.entries (fun _ => true) n []).map (Path.spell root ·.names) := by
    have hfirst := congrArg (List.map Prod.fst) hboth
    rwa [List.map_map, List.map_map] at hfirst
  have hclosed : (entries n 0 true root t).filter (·.isClosed) = [] := by
    refine List.filter_eq_nil_iff.mpr fun e he => ?_
    have hmem := List.mem_map_of_mem (f := fun e => (e.path, e.isClosed)) he
    rw [hboth] at hmem
    obtain ⟨e', -, heq⟩ := List.mem_map.mp hmem
    simp [← (Prod.mk.inj heq).2]
  rw [printed, hclosed, lines, htakes, ← hpath, Line.unsplit, List.flatMap_map]
  rfl

lemma run_maxDepth {world : World} {place : World.Place} (called : Bytes) {n : ℕ}
    (hn : n ≤ greatestDepth) (h : world.find? [Path.dot, Path.slash] = .ok place)
    (hopen : place.tree.IsOpen) :
    run world called [[Path.dot, Path.slash], Utf8.encode "-maxdepth".toList,
        Utf8.encode (Text.decimal n)] =
      .success (Line.unsplit newline ((place.tree.entries (fun _ => true) n []).map
        (Path.spell [Path.dot, Path.slash] ·.names))) := by
  have hpath : isOption [Path.dot, Path.slash] = false := rfl
  have hoption : isOption (Utf8.encode "-maxdepth".toList) = true := rfl
  rw [run]
  simp only [List.takeWhile_cons, List.dropWhile_cons, hpath, hoption, Bool.not_false,
    Bool.not_true, if_pos, Bool.false_eq_true, if_false]
  rw [choose_maxDepth hn]
  dsimp only
  rw [if_neg (by simp), print, h]
  dsimp only
  rw [printed_maxDepth called n _ hopen, print, Outcome.andThen, Outcome.success, Outcome.success,
    List.append_nil, List.append_nil]
  rfl

end PathSieve.Command.Find

namespace PathSieve.Command.Program

lemma run_find (world : World) {search directory : Bytes} {more : List Bytes}
    (hsearch : Search.directories search = directory :: more)
    (hsystem : Search.systemName? (Search.candidate directory (Utf8.encode "find".toList)) =
      some (Utf8.encode "find".toList)) (args : List Bytes) :
    run world search (Utf8.encode "find".toList) args =
      .ok (Find.run world (Utf8.encode "find".toList) args) := by
  have htitle : String.ofList (Utf8.decodeLossy (Utf8.encode "find".toList)) = "find" := by
    rw [Utf8.decodeLossy_encode, String.ofList_toList]
  rw [run, lookUp, if_neg (by decide), if_neg (by decide), hsearch, first,
    depthLimit, runAt, hsystem, Option.bind_some, system?, htitle]
  rfl

end PathSieve.Command.Program
