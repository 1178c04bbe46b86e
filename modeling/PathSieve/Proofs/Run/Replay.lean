import PathSieve.Proofs.Listing.Input
import PathSieve.Proofs.Listing.Names
import PathSieve.Proofs.Run

/-! Replays. The paths of a walk, written one a line and read as input, are evaluated as they were
in the walk; only the root, whose path is empty, is missing. -/

namespace PathSieve

namespace Listed

lemma strip_name_append {s : Text} (h : IsPlainName s) (rest : Text) :
    strip (s ++ rest) = s ++ rest := by
  obtain ⟨c, s, rfl⟩ := List.exists_cons_of_ne_nil h.ne_nil
  have hslash := h.slash_notMem
  have hdot := h.ne_dot
  cases s with
  | nil =>
    have hc : c ≠ '.' := fun he => hdot (congrArg (fun c => [c]) he)
    simp [strip, hc]
  | cons d s =>
    have hd : d ≠ '/' := fun he => hslash (by simp [he])
    simp [strip, hd]

end Listed

namespace Listing

structure IsReadableName (s : Text) : Prop extends IsLineName s where
  exists_not_blank : ∃ c ∈ s, Text.isBlank c = false

structure IsReplayed (path : Text) : Prop where
  newline_notMem : '\n' ∉ path
  path?_eq : Input.path? path = some path
  strip_eq : Listed.strip path = path

lemma isReplayed_join {ss : List Text} (hss : ss ≠ [])
    (h : ∀ s ∈ ss, Listed.IsPlainName s ∧ IsReadableName s) (isDirectory : Bool) :
    IsReplayed (Text.join ['/'] ss ++ if isDirectory then ['/'] else []) := by
  obtain ⟨s, ss, rfl⟩ := List.exists_cons_of_ne_nil hss
  obtain ⟨hs, hread⟩ := h s List.mem_cons_self
  have hnewline := newline_notMem_join fun s hs => (h s hs).2.toIsLineName
  have hlast := getLast?_join_ne fun s hs => ⟨(h s hs).1.ne_nil, (h s hs).2.toIsLineName⟩
  refine ⟨?_, Input.path?_eq_self ?_ ?_, ?_⟩
  · cases isDirectory <;> simp [hnewline]
  · cases isDirectory with
    | true => simp
    | false => simpa using hlast
  · obtain ⟨c, hc, hblank⟩ := hread.exists_not_blank
    exact ⟨c, by simp [Text.join_cons, hc], hblank⟩
  · rw [Text.join_cons, List.append_assoc]
    exact Listed.strip_name_append hs _

lemma isReplayed_input : IsReplayed (Listed.strip "./../<stdin>".toList) :=
  ⟨by decide, by decide, by decide⟩

lemma filterMap_path? {paths : List Text} (h : ∀ path ∈ paths, IsReplayed path) :
    paths.filterMap Input.path? = paths := by
  rw [List.filterMap_congr fun path hpath => (h path hpath).path?_eq, List.filterMap_some]

namespace Walk

open PathSieve.Tree (Entry)

lemma exists_line {t u : Tree} {e : Entry} (ht : t.Legal) (hnames : t.HasNames IsReadableName)
    (hu : t.At e.names u) (he : e.names ≠ []) :
    ∃ line, entryLine? e = some line ∧ IsReplayed (Listed.strip line) := by
  obtain ⟨ss, hss, hall⟩ := exists_names (fun _ h => h.backslash_notMem) ht hnames hu
  have hne : ss ≠ [] := by
    rintro rfl
    exact he hss.symm
  refine ⟨_, entryLine?_of_encode e _ (entryPath_texts hss), ?_⟩
  rw [Listed.strip_render_join hne fun s hs => (hall s hs).1]
  exact isReplayed_join hne hall e.isDirectory

lemma isReplayed_of_mem {t : Tree} {es : List Entry} {line : Text} (ht : t.Legal)
    (hnames : t.HasNames IsReadableName) (hes : ∀ e ∈ es, e.names ≠ [] ∧ ∃ u, t.At e.names u)
    (hline : line ∈ es.filterMap entryLine?) : IsReplayed (Listed.strip line) := by
  obtain ⟨e, he, hsome⟩ := List.mem_filterMap.mp hline
  obtain ⟨hne, u, hu⟩ := hes e he
  obtain ⟨line', hline', hreplayed⟩ := exists_line ht hnames hu hne
  exact Option.some.inj (hline'.symm.trans hsome) ▸ hreplayed

lemma exists_below {world : World} {root : Bytes} {place : World.Place} (hlegal : world.root.Legal)
    (hroot : Listing.root world root = .ok place)
    (hnames : place.tree.HasNames IsReadableName) (depth : ℕ) (isSorted : Bool) :
    ∃ below, (list world root depth isSorted).value =
        .ok (if isInput root then below else Listed.mark :: below) ∧
      ∀ line ∈ below, IsReplayed (Listed.strip line) := by
  split_ifs with hin
  · refine ⟨_, value_list_input hroot hin depth isSorted, fun line hline => ?_⟩
    rw [List.mem_singleton.mp hline]
    exact isReplayed_input
  obtain ⟨hfound, hdir⟩ := of_root_ok hroot
  have ht := World.legal_of_find? hlegal hfound
  obtain ⟨es, hreached, hes⟩ := exists_reached_below ht hdir root depth isSorted
  refine ⟨es.filterMap entryLine?, ?_, fun line => isReplayed_of_mem ht hnames hes⟩
  rw [value_list hroot ht (Bool.eq_false_iff.mpr hin), hreached,
    List.filterMap_cons, entryLine?_root]

end Walk

end Listing

def Record.shown (record : Record) : Text × Bool × Text :=
  (record.normalized, record.matched, record.diagnostic)

namespace Run

open Listing (IsReadableName)
open Listing.Input (Source)
open Listing.Walk (isInput)

lemma shown_evaluate_strip (policy : Policy) {raw : Text}
    (h : Listed.strip (Listed.strip raw) = Listed.strip raw) :
    (Record.evaluate policy (Listed.strip raw)).shown = (Record.evaluate policy raw).shown := by
  rw [Record.shown, Record.shown, Record.matched_evaluate, Record.matched_evaluate,
    Record.diagnostic, Record.diagnostic, Record.evaluate, Record.evaluate, h]

lemma value_report_congr (policy : Policy) (diagnostics : Bool) (capacity : Option ℕ)
    {as bs : List Text} (h : as.map Listed.strip = bs.map Listed.strip) :
    (report policy diagnostics capacity as).value =
      (report policy diagnostics capacity bs).value := by
  rw [value_report_of_capacity, value_report_of_capacity, h]

lemma value_list_below {root : Bytes} {below : List Text}
    (h : ∀ line ∈ below, Listing.IsReplayed (Listed.strip line)) :
    (Source.ofBytes (Utf8.encode (Line.unsplit '\n' ((if isInput root then below
      else Listed.mark :: below).map Listed.strip)))).list.1.value =
        .ok (below.map Listed.strip) := by
  have hpaths : ∀ path ∈ below.map Listed.strip, Listing.IsReplayed path :=
    List.forall_mem_map.mpr h
  have hnewline := fun path hpath => (hpaths path hpath).newline_notMem
  split_ifs
  · rw [Listing.Input.value_list_unsplit hnewline, Listing.filterMap_path? hpaths]
  · -- the path of the root makes an empty line, which no path is read from
    have hroot : Listed.strip Listed.mark = [] := rfl
    have hempty : Listing.Input.path? [] = none := rfl
    rw [List.map_cons, hroot, Listing.Input.value_list_unsplit
      (List.forall_mem_cons.mpr ⟨List.not_mem_nil, hnewline⟩), List.filterMap_cons, hempty,
      Listing.filterMap_path? hpaths]

theorem replay_of_walk {world : World} {root : Bytes} {place : World.Place}
    (hlegal : world.root.Legal) (hroot : Listing.root world root = .ok place)
    (hnames : place.tree.HasNames IsReadableName) (depth : ℕ) (isSorted : Bool) (policy : Policy) :
    ∃ raws below lines, (Listing.Walk.list world root depth isSorted).value = .ok raws ∧
      raws = (if isInput root then below else Listed.mark :: below) ∧
      (Source.ofBytes (Utf8.encode (Line.unsplit '\n'
        ((raws.map (Record.evaluate policy)).map Record.normalized)))).list.1.value = .ok lines ∧
      (lines.map (Record.evaluate policy)).map Record.shown =
        (below.map (Record.evaluate policy)).map Record.shown ∧
      ∀ diagnostics capacity, (report policy diagnostics capacity lines).value =
        (report policy diagnostics capacity below).value := by
  obtain ⟨below, hlist, hbelow⟩ :=
    Listing.Walk.exists_below hlegal hroot hnames depth isSorted
  refine ⟨_, below, below.map Listed.strip, hlist, rfl, ?_, ?_, fun diagnostics capacity => ?_⟩
  · rw [List.map_map]
    exact value_list_below hbelow
  · rw [List.map_map, List.map_map, List.map_map]
    exact List.map_congr_left fun line hline =>
      shown_evaluate_strip policy (hbelow line hline).strip_eq
  · refine value_report_congr policy diagnostics capacity ?_
    rw [List.map_map]
    exact List.map_congr_left fun line hline => (hbelow line hline).strip_eq

def shelfTree : Tree :=
  .directory [(Utf8.encode "a b".toList,
      .directory [(Utf8.encode ".c\r-".toList, .file [] false true)] .free),
    (Utf8.encode " d".toList, .link [Path.dot])] .free

def shelf : World := ⟨shelfTree, []⟩

lemma legal_shelf : shelf.root.Legal := by
  refine .directory (by decide) (by decide) ?_
  rintro e he
  simp only [List.mem_cons, List.not_mem_nil, or_false] at he
  rcases he with rfl | rfl
  · exact .singleton (by decide) (.file _ _ _) _
  · exact .link _

lemma hasNames_shelf : shelfTree.HasNames IsReadableName := by
  intro names u hu name hname
  cases hu with
  | here => cases hname
  | inside ht hu =>
    simp only [List.mem_cons, List.not_mem_nil, or_false, Prod.mk.injEq] at ht
    rcases ht with ⟨rfl, rfl⟩ | ⟨rfl, rfl⟩
    · rcases List.mem_cons.mp hname with rfl | hname
      · exact ⟨_, rfl, ⟨by decide, by decide, by decide⟩, 'a', by decide, by decide⟩
      cases hu with
      | here => cases hname
      | inside ht hu =>
        obtain ⟨rfl, rfl⟩ := Prod.mk.inj (List.mem_singleton.mp ht)
        cases hu
        obtain rfl := List.mem_singleton.mp hname
        exact ⟨_, rfl, ⟨by decide, by decide, by decide⟩, 'c', by decide, by decide⟩
    · cases hu
      obtain rfl := List.mem_singleton.mp hname
      exact ⟨_, rfl, ⟨by decide, by decide, by decide⟩, 'd', by decide, by decide⟩

theorem replay_of_walk_shelf :
    shelf.root.Legal ∧ Listing.root shelf [Path.dot] = .ok (.top shelfTree) ∧
      shelfTree.HasNames IsReadableName ∧
      ∃ raws below lines, (Listing.Walk.list shelf [Path.dot] 2 true).value = .ok raws ∧
        raws = Listed.mark :: below ∧
        (Source.ofBytes (Utf8.encode (Line.unsplit '\n'
          ((raws.map (Record.evaluate (.denylist .standard))).map
            Record.normalized)))).list.1.value = .ok lines ∧
        (lines.map (Record.evaluate (.denylist .standard))).map Record.shown =
          (below.map (Record.evaluate (.denylist .standard))).map Record.shown := by
  have hroot : Listing.root shelf [Path.dot] = .ok (.top shelfTree) :=
    Listing.Walk.root_ok (World.find?_dot rfl) rfl rfl
  obtain ⟨raws, below, lines, hlist, hraws, hlines, hshown, -⟩ :=
    replay_of_walk legal_shelf hroot hasNames_shelf 2 true (.denylist .standard)
  exact ⟨legal_shelf, hroot, hasNames_shelf, raws, below, lines, hlist, hraws, hlines, hshown⟩

end Run

end PathSieve
