import PathSieve.Proofs.Listing.Find
import PathSieve.Proofs.Policy.Denylist
import PathSieve.Proofs.Run

namespace PathSieve

namespace Listed

lemma slash_suffix_strip_iff {ss : List Text} (hss : ss ≠ []) (h : ∀ s ∈ ss, IsPlainName s)
    (isDirectory : Bool) :
    ['/'] <:+ strip (render (Text.join ['/'] ss) isDirectory) ↔ isDirectory = true := by
  rw [strip_render_join hss h]
  cases isDirectory with
  | true => exact iff_of_true (List.suffix_append _ _) rfl
  | false =>
    refine iff_of_false (fun hsuffix => ?_) Bool.false_ne_true
    obtain ⟨s, hs, hlast⟩ := Text.exists_getLast?_join ['/'] hss fun s hs => (h s hs).ne_nil
    rw [List.singleton_suffix_iff_getLast?_eq_some, if_neg Bool.false_ne_true, List.append_nil,
      hlast] at hsuffix
    exact (h s hs).slash_notMem (List.mem_of_getLast? hsuffix)

end Listed

namespace Run

open Listing.Walk (isInput entryPath entryLine? WithinLimit)
open PathSieve.Tree (Entry)

def IsKept (list : Denylist) (e : Entry) : Prop :=
  e.isDirectory = true ∧ e.names ≠ [] ∧
    ∃ rel ∈ Utf8.decode? (entryPath e), list.Spares (rel ++ ['/'])

instance (list : Denylist) : DecidablePred (IsKept list) := fun e =>
  inferInstanceAs (Decidable (e.isDirectory = true ∧ e.names ≠ [] ∧
    ∃ rel ∈ Utf8.decode? (entryPath e), list.Spares (rel ++ ['/'])))

variable {list : Denylist} {e : Entry} {ss : List Text}

lemma isKept_iff (hss : ss.map Utf8.encode = e.names) :
    IsKept list e ↔ e.isDirectory = true ∧ ss ≠ [] ∧ list.Spares (Text.join ['/'] ss ++ ['/']) := by
  have hnames : e.names ≠ [] ↔ ss ≠ [] := by rw [← hss, ne_eq, List.map_eq_nil_iff]
  rw [IsKept, hnames, Listing.Walk.entryPath_texts hss, Utf8.decode?_encode]
  simp

lemma matched_iff_isKept (hss : ss.map Utf8.encode = e.names)
    (hall : ∀ s ∈ ss, Listed.IsPlainName s) :
    (Record.evaluate (.denylist list)
      (Listed.render (Text.join ['/'] ss) e.isDirectory)).matched = true ↔ IsKept list e := by
  rw [isKept_iff hss, Record.matched_evaluate, Policy.accepts, Denylist.accepts_iff_spares]
  by_cases hnil : ss = []
  · subst hnil
    have hroot : Listed.strip (Listed.render (Text.join ['/'] []) e.isDirectory) = [] := rfl
    simp [hroot]
  rw [Listed.slash_suffix_strip_iff hnil hall, Listed.strip_render_join hnil hall]
  refine and_congr_right fun hdir => ?_
  rw [hdir, if_pos rfl, and_iff_right hnil]

lemma isKept_standard_iff (hss : ss.map Utf8.encode = e.names)
    (hall : ∀ s ∈ ss, Listed.IsPlainName s) :
    IsKept .standard e ↔ e.isDirectory = true ∧
      ∃ first more, e.names = first :: more ∧ first ≠ Utf8.encode ".tekton".toList := by
  rw [isKept_iff hss, ← hss]
  refine and_congr_right fun _ => ?_
  cases ss with
  | nil => simp
  | cons s ss =>
    have hslash := (hall s List.mem_cons_self).slash_notMem
    rw [and_iff_right (List.cons_ne_nil s ss), Denylist.standard_spares_iff hslash]
    have hencode : s ≠ ".tekton".toList ↔ Utf8.encode s ≠ Utf8.encode ".tekton".toList :=
      Utf8.encode_injective.ne_iff.symm
    refine hencode.trans ⟨fun h => ⟨_, _, rfl, h⟩, ?_⟩
    rintro ⟨first, more, hcons, h⟩
    exact (List.cons.inj hcons).1 ▸ h

lemma forall₂_filterMap {α β : Type} {f : α → Option β} {r : α → β → Prop} {as : List α}
    (h : ∀ a ∈ as, ∃ b, f a = some b ∧ r a b) : List.Forall₂ r as (as.filterMap f) := by
  induction as with
  | nil => exact .nil
  | cons a as ih =>
    rw [List.forall_mem_cons] at h
    obtain ⟨b, hb, hr⟩ := h.1
    rw [List.filterMap_cons_some hb]
    exact .cons hr (ih h.2)

lemma countP_eq_of_forall₂ {α β : Type} {p : α → Bool} {q : β → Bool} {as : List α} {bs : List β}
    (h : List.Forall₂ (fun a b => q b = true ↔ p a = true) as bs) : bs.countP q = as.countP p := by
  induction h with
  | nil => rfl
  | cons hab _ ih => rw [List.countP_cons, List.countP_cons, ih, Bool.eq_iff_iff.mpr hab]

theorem report_of_denylist {world : World} {root : Bytes} {place : World.Place}
    (hlegal : world.root.Legal) (hroot : world.find? root = .ok place)
    (hdir : place.tree.isDirectory) (hin : isInput root = false)
    (hlimit : WithinLimit root place.tree) (hopen : place.tree.IsOpen)
    (hnames : place.tree.HasNames fun s => '\\' ∉ s)
    {list : Denylist} {exact prefixes suffixes : Option (List Text)}
    (hlist : list = .override exact prefixes suffixes) (depth : ℕ) (isSorted diagnostics : Bool) :
    ∃ es raws report, place.tree.Enumerates depth es ∧
      (Listing.Walk.list world root depth isSorted).value = .ok raws ∧
      (Run.report (.denylist list) diagnostics none raws).value = .ok report ∧
      report = .ofRecords diagnostics (raws.map (Record.evaluate (.denylist list))) ∧
      List.Forall₂ (fun e raw => entryLine? e = some raw ∧
        ((Record.evaluate (.denylist list) raw).matched = true ↔ IsKept list e)) es raws ∧
      report.summary = ⟨es.length, es.countP (IsKept list ·)⟩ ∧
      (exact = none → prefixes = none → suffixes = none → ∀ e ∈ es,
        IsKept list e ↔ e.isDirectory = true ∧
          ∃ first more, e.names = first :: more ∧ first ≠ Utf8.encode ".tekton".toList) := by
  have ht := World.legal_of_find? hlegal hroot
  have hes := Listing.Walk.enumerates_reached ht hlimit hopen depth isSorted
  have htexts : ∀ e ∈ Listing.Walk.reached root depth isSorted place.tree,
      ∃ ss : List Text, ss.map Utf8.encode = e.names ∧ ∀ s ∈ ss, Listed.IsPlainName s := by
    intro e he
    obtain ⟨-, u, hu, -⟩ := (hes.mem_iff e).mp he
    obtain ⟨ss, hss, hall⟩ := Listing.exists_names (fun _ => id) ht hnames hu
    exact ⟨ss, hss, fun s hs => (hall s hs).1⟩
  have hlines : ∀ e ∈ Listing.Walk.reached root depth isSorted place.tree, ∃ raw,
      entryLine? e = some raw ∧ entryLine? e = some raw ∧
        ((Record.evaluate (.denylist list) raw).matched = true ↔ IsKept list e) := by
    intro e he
    obtain ⟨ss, hss, hall⟩ := htexts e he
    have hline := Listing.Walk.entryLine?_of_encode e _ (Listing.Walk.entryPath_texts hss)
    exact ⟨_, hline, hline, matched_iff_isKept hss hall⟩
  have hmarked := forall₂_filterMap hlines
  have hroot' := Listing.Walk.root_ok_of_isOpen hroot hdir hopen
  refine ⟨_, _, _, hes, Listing.Walk.value_list hroot' ht hin depth isSorted,
    value_report_records _ _ _, rfl, hmarked, ?_, ?_⟩
  · rw [ofRecords_evaluate, Report.ofPaths, List.length_map, hmarked.length_eq, List.countP_map,
      countP_eq_of_forall₂ (hmarked.imp fun e raw h => ?_)]
    rw [Function.comp_apply, ← Record.matched_evaluate, h.2, decide_eq_true_iff]
  · rintro rfl rfl rfl e he
    obtain ⟨ss, hss, hall⟩ := htexts e he
    rw [hlist]
    exact isKept_standard_iff hss hall

def projectTree : Tree :=
  .directory [(Utf8.encode ".tekton".toList, .empty), (Utf8.encode ['a'], .empty)] .free

def project : World := ⟨projectTree, []⟩

lemma legal_project : project.root.Legal := by
  refine .directory (by decide) (by decide) ?_
  have hempty : Tree.empty.Legal := .directory List.nodup_nil (by simp) (by simp)
  exact List.forall_mem_cons.mpr ⟨hempty, List.forall_mem_singleton.mpr hempty⟩

lemma find?_project : project.find? [Path.dot] = .ok (.top projectTree) := World.find?_dot rfl

lemma names_project {names : List Bytes} {u : Tree} (h : projectTree.At names u) :
    names ∈ [[], [Utf8.encode ".tekton".toList], [Utf8.encode ['a']]] := by
  cases h with
  | here => exact List.mem_cons_self
  | inside ht h =>
    simp only [List.mem_cons, List.not_mem_nil, or_false, Prod.mk.injEq] at ht
    rcases ht with ⟨rfl, rfl⟩ | ⟨rfl, rfl⟩
    · cases h with
      | here => decide
      | inside ht h => cases ht
    · cases h with
      | here => decide
      | inside ht h => cases ht

lemma withinLimit_project : WithinLimit [Path.dot] projectTree := by
  have hall : ∀ names ∈ [[], [Utf8.encode ".tekton".toList], [Utf8.encode ['a']]],
      (Path.spell [Path.dot] names).length < World.pathLimit := by decide
  exact fun names es access h => hall names (names_project h)

lemma isOpen_project : projectTree.IsOpen := by
  have hempty : Tree.empty.IsOpen := Tree.isOpen_directory_iff.mpr ⟨rfl, by simp⟩
  exact Tree.isOpen_directory_iff.mpr ⟨rfl, List.forall_mem_cons.mpr ⟨hempty,
    List.forall_mem_singleton.mpr hempty⟩⟩

lemma hasNames_project : projectTree.HasNames fun s => '\\' ∉ s := by
  have hall : ∀ names ∈ [[], [Utf8.encode ".tekton".toList], [Utf8.encode ['a']]], ∀ name ∈ names,
      name = Utf8.encode ".tekton".toList ∨ name = Utf8.encode ['a'] := by decide
  intro names u h name hname
  rcases hall names (names_project h) name hname with rfl | rfl
  · exact ⟨_, rfl, by decide⟩
  · exact ⟨_, rfl, by decide⟩

theorem report_of_denylist_project :
    project.root.Legal ∧ project.find? [Path.dot] = .ok (.top projectTree) ∧
      isInput [Path.dot] = false ∧ WithinLimit [Path.dot] projectTree ∧ projectTree.IsOpen ∧
      (projectTree.HasNames fun s => '\\' ∉ s) ∧
      Denylist.standard = .override none none none ∧
      ∃ es raws report, projectTree.Enumerates 1 es ∧
        (Listing.Walk.list project [Path.dot] 1 true).value = .ok raws ∧
        (Run.report (.denylist .standard) true none raws).value = .ok report ∧
        List.Forall₂ (fun e raw => entryLine? e = some raw ∧
          ((Record.evaluate (.denylist .standard) raw).matched = true ↔ IsKept .standard e))
          es raws ∧
        report.summary = ⟨es.length, es.countP (IsKept .standard ·)⟩ ∧
        ∀ e ∈ es, IsKept .standard e ↔ e.isDirectory = true ∧
          ∃ first more, e.names = first :: more ∧ first ≠ Utf8.encode ".tekton".toList := by
  have hlist : Denylist.standard = .override none none none := rfl
  obtain ⟨es, raws, report, hes, hraws, hreport, -, hmarked, hsummary, hstandard⟩ :=
    report_of_denylist legal_project find?_project rfl (by decide) withinLimit_project
      isOpen_project hasNames_project hlist 1 true true
  exact ⟨legal_project, find?_project, by decide, withinLimit_project, isOpen_project,
    hasNames_project, hlist, es, raws, report, hes, hraws, hreport, hmarked, hsummary,
    hstandard rfl rfl rfl⟩

theorem not_report_of_denylist :
    ¬ ∀ (world : World) (root : Bytes) (place : World.Place) (depth : ℕ) (isSorted : Bool),
      world.root.Legal → world.find? root = .ok place → place.tree.isDirectory →
      root ≠ [0x2D] → root ≠ [0x2D, Path.slash] → WithinLimit root place.tree →
      place.tree.IsOpen → (place.tree.HasNames fun s => '\\' ∉ s) →
      ∃ es raws, place.tree.Enumerates depth es ∧
        (Listing.Walk.list world root depth isSorted).value = .ok raws ∧
        List.Forall₂ (fun e raw => (Record.evaluate (.denylist .standard) raw).matched = true ↔
          IsKept .standard e) es raws := by
  intro h
  -- a root that is written `-/.` is standard input, which gives one record in place of two
  obtain ⟨es, raws, hes, hraws, hmarked⟩ := h Listing.Walk.sample [0x2D, Path.slash, Path.dot]
    Listing.Walk.hyphenPlace 1 true Listing.Walk.legal_sample Listing.Walk.find?_hyphen rfl
    (by decide) (by decide) (Listing.Walk.withinLimit_hyphen (by decide)) Listing.Walk.isOpen_hyphen
    (Listing.Find.hasNames_hyphen.imp fun _ => Listing.IsLineName.backslash_notMem)
  rw [Listing.Walk.value_list_input (Listing.Walk.root_ok Listing.Walk.find?_hyphen rfl rfl)
    (by decide)] at hraws
  obtain rfl := Except.ok.inj hraws
  obtain ⟨e, rfl⟩ := List.length_eq_one_iff.mp hmarked.length_eq
  have hroot : (⟨[], true⟩ : Entry) ∈ [e] :=
    (hes.mem_iff _).mpr ⟨Nat.zero_le _, _, .here _, rfl⟩
  have hfile : (⟨[[0x62]], false⟩ : Entry) ∈ [e] :=
    (hes.mem_iff _).mpr ⟨le_refl 1, _, .inside List.mem_cons_self (.here _), rfl⟩
  rw [List.mem_singleton] at hroot hfile
  cases hroot.trans hfile.symm

end Run

end PathSieve
