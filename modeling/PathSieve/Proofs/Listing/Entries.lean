import PathSieve.Listing.Walk
import PathSieve.Proofs.Text.Utf8.Decode
import PathSieve.Proofs.Tree.Visit
import PathSieve.Proofs.Tree.World

namespace PathSieve.Listing.Walk

open PathSieve.Tree (Entry)

def entryPath (e : Entry) : Bytes := Text.join [Path.slash] e.names

def entryLine? (e : Entry) : Option Text :=
  (Utf8.decode? (entryPath e)).map (Listed.render · e.isDirectory)

lemma line_spell (root : Bytes) {e : Entry} (hnames : ∀ name ∈ e.names, Path.IsName name) :
    (relative? root (Path.spell root e.names)).map (Listed.render · e.isDirectory) =
      entryLine? e := by
  rw [relative?, (Path.staysBelow_spell root hnames).relative_eq]
  rfl

variable {root : Bytes}

lemma lines_visits {fits : Bytes → Bool} {isReached : Bool} (depth : ℕ) {t : Tree}
    (ht : t.Legal) :
    (t.visits fits isReached depth root).filterMap (line? root) =
      (t.entries (Tree.canOpen fits isReached root t) depth []).filterMap entryLine? := by
  have hline : line? root =
      (fun p : Bytes × Bool => (relative? root p.1).map (Listed.render · p.2)) ∘
        fun visit => (visit.path, visit.isDirectory) := rfl
  rw [hline, ← List.filterMap_map, Tree.map_visits_root ht, List.filterMap_map]
  refine List.filterMap_congr fun e he => line_spell root ?_
  obtain ⟨names, u, hn, -, hu, -⟩ := Tree.exists_of_mem_entries depth [] t he
  exact hn ▸ (ht.at hu).1

def walked (isSorted : Bool) (t : Tree) : Tree := if isSorted then t.sorted else t

lemma legal_walked {t : Tree} (h : t.Legal) (isSorted : Bool) : (walked isSorted t).Legal := by
  cases isSorted
  · exact h
  · exact h.sorted

lemma at_walked {t : Tree} {names : List Bytes} {isDirectory : Bool} (isSorted : Bool) :
    (∃ u, (walked isSorted t).At names u ∧ isDirectory = u.isDirectory) ↔
      ∃ u, t.At names u ∧ isDirectory = u.isDirectory := by
  cases isSorted with
  | false => rfl
  | true =>
    constructor
    · rintro ⟨u, hu, hd⟩
      obtain ⟨v, hv, rfl⟩ := Tree.exists_of_at_sorted hu
      exact ⟨v, hv, hd.trans (Tree.isDirectory_sorted v)⟩
    · rintro ⟨u, hu, hd⟩
      exact ⟨u.sorted, Tree.at_sorted hu, hd.trans (Tree.isDirectory_sorted u).symm⟩

lemma isOpen_walked {t : Tree} (h : t.IsOpen) (isSorted : Bool) : (walked isSorted t).IsOpen := by
  cases isSorted
  · exact h
  · exact h.sorted

def opens (root : Bytes) (t : Tree) : List Bytes → Bool :=
  Tree.canOpen (·.length < World.pathLimit) true root t

def reached (root : Bytes) (depth : ℕ) (isSorted : Bool) (t : Tree) : List Entry :=
  (walked isSorted t).entries (opens root (walked isSorted t)) depth []

def WithinLimit (root : Bytes) (t : Tree) : Prop :=
  ∀ names es access, t.At names (.directory es access) →
    (Path.spell root names).length < World.pathLimit

lemma opens_walked {t : Tree} (ht : t.Legal) (hlimit : WithinLimit root t) (hopen : t.IsOpen)
    {isSorted : Bool} {names : List Bytes} {es : List (Bytes × Tree)} {access : Access}
    (h : (walked isSorted t).At names (.directory es access)) :
    opens root (walked isSorted t) names = true := by
  obtain ⟨v, hv, hdir⟩ := (at_walked isSorted).mp ⟨_, h, rfl⟩
  obtain ⟨es', access', rfl⟩ := Tree.isDirectory_iff.mp hdir.symm
  rw [opens, Tree.canOpen, decide_eq_true (hlimit names es' access' hv),
    (isOpen_walked hopen isSorted).canListAt (legal_walked ht isSorted) h]
  rfl

lemma nodup_reached {t : Tree} (h : t.Legal) (root : Bytes) (depth : ℕ) (isSorted : Bool) :
    ((reached root depth isSorted t).map (·.names)).Nodup :=
  Tree.nodup_entries depth [] _ (legal_walked h isSorted)

lemma of_mem_reached {depth : ℕ} {isSorted : Bool} {t : Tree} {e : Entry}
    (h : e ∈ reached root depth isSorted t) :
    e.names.length ≤ depth ∧ ∃ u, t.At e.names u ∧ e.isDirectory = u.isDirectory := by
  obtain ⟨more, u, hn, hl, hu, hd⟩ := Tree.exists_of_mem_entries depth [] _ h
  rw [List.nil_append] at hn
  rw [hn]
  exact ⟨hl, (at_walked isSorted).mp ⟨u, hu, hd⟩⟩

lemma mem_reached {depth : ℕ} (isSorted : Bool) {t : Tree} (ht : t.Legal)
    (hlimit : WithinLimit root t) (hopen : t.IsOpen) {e : Entry} (hl : e.names.length ≤ depth)
    (he : ∃ u, t.At e.names u ∧ e.isDirectory = u.isDirectory) :
    e ∈ reached root depth isSorted t := by
  obtain ⟨u, hu, hd⟩ := (at_walked isSorted).mpr he
  have hmem : ⟨[] ++ e.names, u.isDirectory⟩ ∈ reached root depth isSorted t :=
    Tree.mem_entries hu hl fun before es access h => opens_walked ht hlimit hopen h
  rw [← hd] at hmem
  exact hmem

lemma enumerates_reached {t : Tree} (ht : t.Legal) (hlimit : WithinLimit root t) (hopen : t.IsOpen)
    (depth : ℕ) (isSorted : Bool) : t.Enumerates depth (reached root depth isSorted t) :=
  ⟨nodup_reached ht root depth isSorted, fun _ =>
    ⟨of_mem_reached, fun h => mem_reached isSorted ht hlimit hopen h.1 h.2⟩⟩

lemma exists_reached {t : Tree} (h : t.isDirectory) (root : Bytes) (depth : ℕ) (isSorted : Bool) :
    ∃ es, reached root depth isSorted t = ⟨[], true⟩ :: es := by
  obtain ⟨u, hu, hd⟩ := (at_walked (t := t) isSorted).mpr ⟨t, .here t, rfl⟩
  obtain rfl := hu.eq_of_nil
  obtain ⟨es, access, hes⟩ := Tree.isDirectory_iff.mp (hd.symm.trans h)
  rw [reached, hes, Tree.entries]
  exact ⟨_, rfl⟩

lemma exists_reached_below {t : Tree} (ht : t.Legal) (h : t.isDirectory) (root : Bytes) (depth : ℕ)
    (isSorted : Bool) :
    ∃ es, reached root depth isSorted t = ⟨[], true⟩ :: es ∧
      ∀ e ∈ es, e.names ≠ [] ∧ ∃ u, t.At e.names u := by
  have hnodup := nodup_reached ht root depth isSorted
  obtain ⟨es, hes⟩ := exists_reached h root depth isSorted
  rw [hes, List.map_cons, List.nodup_cons] at hnodup
  refine ⟨es, hes, fun e he => ⟨fun hn => hnodup.1 (List.mem_map.mpr ⟨e, he, hn⟩), ?_⟩⟩
  obtain ⟨-, u, hu, -⟩ := of_mem_reached (hes ▸ List.mem_cons_of_mem _ he)
  exact ⟨u, hu⟩

end PathSieve.Listing.Walk
