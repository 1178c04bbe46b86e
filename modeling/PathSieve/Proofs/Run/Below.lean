import PathSieve.Proofs.Listing.Names
import PathSieve.Proofs.Policy.Star
import PathSieve.Proofs.Run

namespace PathSieve

namespace Listing.Walk

open PathSieve.Tree (Entry)

lemma strip_prefix_strip {d e : Entry} (hnames : ∀ name ∈ e.names, Path.IsName name)
    (he : IsPlain e) (hd : d.isDirectory = true) {more : List Bytes}
    (hmore : more ≠ []) (hbelow : d.names ++ more = e.names) {a b : Text}
    (ha : entryLine? d = some a) (hb : entryLine? e = some b) :
    Listed.strip a <+: Listed.strip b := by
  have hsub : ∀ name ∈ d.names, name ∈ e.names := fun name hname =>
    hbelow ▸ List.mem_append_left more hname
  obtain ⟨ss, hss, hplain, rfl⟩ := exists_texts_of_line (fun name hname => hnames _ (hsub _ hname))
    (fun name hname => he _ (hsub _ hname)) ha
  obtain ⟨us, hus, hplain', rfl⟩ := exists_texts_of_line hnames he hb
  rw [← hss, eq_comm] at hbelow
  obtain ⟨xs, ys, rfl, hxs, rfl⟩ := List.map_eq_append_iff.mp (hus.trans hbelow)
  obtain rfl : xs = ss := List.map_injective_iff.mpr Utf8.encode_injective hxs
  by_cases hxs' : xs = []
  · -- the root, whose path is empty
    subst hxs'
    exact List.nil_prefix
  have hys : ys ≠ [] := by
    rintro rfl
    exact hmore rfl
  rw [Listed.strip_render_join hxs' hplain, Listed.strip_render_join (by simp [hxs']) hplain', hd,
    Text.join_append _ hxs' hys, List.append_assoc]
  exact List.prefix_append _ _

end Listing.Walk

namespace Run

open Listing.Walk (isInput entryLine? IsPlain)

/-- With a directory, everything listed below it is accepted. -/
def AcceptsBelow (policy : Policy) (es : List Tree.Entry) : Prop :=
  ∀ d ∈ es, ∀ e ∈ es, IsPlain e → d.names <+: e.names → d.names ≠ e.names →
    ∀ a b, entryLine? d = some a → entryLine? e = some b →
      (Record.evaluate policy a).matched = true → (Record.evaluate policy b).matched = true

lemma acceptsBelow_of_append {policy : Policy}
    (happend : ∀ path rest : Text, policy.accepts path = true →
      policy.accepts (path ++ rest) = true)
    {t : Tree} (ht : t.Legal) {es : List Tree.Entry}
    (hes : ∀ e ∈ es, ∃ u, t.At e.names u ∧ e.isDirectory = u.isDirectory) :
    AcceptsBelow policy es := by
  intro d hd e he hplain hbelow hproper a b ha hb haccepts
  rw [Record.matched_evaluate] at haccepts ⊢
  obtain ⟨u, hu, hdir⟩ := hes d hd
  obtain ⟨v, hv, -⟩ := hes e he
  obtain ⟨more, hmore⟩ := hbelow
  have hne : more ≠ [] := by
    rintro rfl
    exact hproper (by rwa [List.append_nil] at hmore)
  have hup : u.isDirectory = true := hu.isDirectory ht (hmore ▸ hv) hne
  obtain ⟨rest, hrest⟩ := Listing.Walk.strip_prefix_strip (ht.at hv).1 hplain (hdir.trans hup) hne
    hmore ha hb
  exact hrest ▸ happend _ rest haccepts

theorem accepts_below_star :
    (∀ (q : Text) (list : Allowlist), Allowlist.compile [q] = .ok list →
      Allowlist.FitsLimit [q ++ ['*']] → ∃ starred,
      Allowlist.compile [q ++ ['*']] = .ok starred ∧ ∀ path rest : Text,
        (Policy.allowlist starred).accepts path = true →
          (Policy.allowlist starred).accepts (path ++ rest) = true) ∧
    ∀ (patterns : List Text) (list : Allowlist), Allowlist.compile patterns = .ok list →
      (∀ p ∈ patterns, Allowlist.EndsInStar p) →
      ∀ (world : World) (root : Bytes) (depth : ℕ) (isSorted diagnostics : Bool) (raws : List Text),
        world.root.Legal → (Listing.Walk.list world root depth isSorted).value = .ok raws →
        (report (.allowlist list) diagnostics none raws).value =
            .ok (.ofRecords diagnostics (raws.map (Record.evaluate (.allowlist list)))) ∧
          if isInput root then raws = ["./../<stdin>".toList]
          else ∃ place es, world.find? root = .ok place ∧ (es.map Tree.Entry.names).Nodup ∧
            (∀ e ∈ es, e.names.length ≤ depth ∧
              ∃ u, place.tree.At e.names u ∧ e.isDirectory = u.isDirectory) ∧
            raws = es.filterMap entryLine? ∧ AcceptsBelow (.allowlist list) es := by
  constructor
  · intro q list hq hfits
    have hstar : Allowlist.EndsInStar (q ++ ['*']) := ⟨q, list, hq, rfl⟩
    obtain ⟨starred, hstarred⟩ := hstar.exists_compile hfits
    refine ⟨starred, hstarred, fun path rest hpath => ?_⟩
    exact Allowlist.accepts_append hstarred (by simpa using hstar) hpath rest
  · intro patterns list hlist hstar world root depth isSorted diagnostics raws hlegal h
    refine ⟨value_report_records _ _ _, ?_⟩
    split_ifs with hin
    · obtain ⟨place, hroot⟩ := Listing.Walk.root_of_list h
      rw [Listing.Walk.value_list_input hroot hin] at h
      exact (Except.ok.inj h).symm
    · obtain ⟨place, es, hfound, ht, hnodup, hes, hraws⟩ :=
        Listing.Walk.exists_entries_of_list hlegal (Bool.eq_false_iff.mpr hin) h
      refine ⟨place, es, hfound, hnodup, hes, hraws, ?_⟩
      refine acceptsBelow_of_append ?_ ht fun e he => (hes e he).2
      exact fun path rest hpath => Allowlist.accepts_append hlist hstar hpath rest

theorem accepts_below_star_joined :
    (Allowlist.compile ["a/*".toList] =
        .ok ⟨[⟨"a/*".toList, [.literal 'a', .literal '/', .anyRun]⟩]⟩ ∧
      Allowlist.FitsLimit ["a/**".toList] ∧
      ∃ starred, Allowlist.compile ["a/**".toList] = .ok starred ∧ ∀ path rest : Text,
        (Policy.allowlist starred).accepts path = true →
          (Policy.allowlist starred).accepts (path ++ rest) = true) ∧
    (Allowlist.compile ["a/**".toList] =
        .ok ⟨[⟨"a/**".toList, [.literal 'a', .allBelow]⟩]⟩ ∧
      (∀ p ∈ ["a/**".toList], Allowlist.EndsInStar p) ∧ Listing.Walk.twins.root.Legal ∧
      (Listing.Walk.list Listing.Walk.twins [Path.dot] 2 false).value =
        .ok (["./", "./a/b", "./a/", "./a/b"].map String.toList) ∧
      ∃ es, ["./", "./a/b", "./a/", "./a/b"].map String.toList = es.filterMap entryLine? ∧
        AcceptsBelow (.allowlist ⟨[⟨"a/**".toList, [.literal 'a', .allBelow]⟩]⟩) es) := by
  have hone : Allowlist.compile ["a/*".toList] =
      .ok ⟨[⟨"a/*".toList, [.literal 'a', .literal '/', .anyRun]⟩]⟩ := by rfl
  have hfits : Allowlist.FitsLimit ["a/**".toList] := by decide
  have hall : Allowlist.compile ["a/**".toList] =
      .ok ⟨[⟨"a/**".toList, [.literal 'a', .allBelow]⟩]⟩ := by rfl
  have hstar : ∀ p ∈ ["a/**".toList], Allowlist.EndsInStar p :=
    List.forall_mem_singleton.mpr ⟨"a/*".toList, _, hone, by decide⟩
  refine ⟨⟨hone, hfits, accepts_below_star.1 _ _ hone hfits⟩, hall, hstar, Listing.Walk.legal_twins,
    Listing.Walk.list_twins, ?_⟩
  obtain ⟨-, htree⟩ := accepts_below_star.2 _ _ hall hstar _ _ 2 false true _
    Listing.Walk.legal_twins Listing.Walk.list_twins
  rw [if_neg (by decide)] at htree
  obtain ⟨-, es, -, -, -, hes, hbelow⟩ := htree
  exact ⟨es, hes, hbelow⟩

-- A long extension needs no regular expression, but with a star behind it has no room for one.
theorem not_accepts_below_star :
    ¬ ∀ (q : Text) (list : Allowlist), Allowlist.compile [q] = .ok list →
      ∃ starred, Allowlist.compile [q ++ ['*']] = .ok starred := by
  intro h
  have hshort (s : Text) (hs : ∀ c ∈ s, c = 'a') :
      ¬ Glob.sizeLimit < Regex.stateSize * s.length := by
    intro hlong
    have hliteral : Glob.IsLiteral s := fun c hc => hs c hc ▸ by decide
    obtain ⟨list, hlist⟩ := Allowlist.exists_compile_extension hliteral
      (fun hc => absurd (hs _ hc) (by decide)) fun hc => absurd (hs _ hc) (by decide)
    exact Allowlist.not_exists_compile_extension_star hliteral hlong (h _ list hlist)
  refine hshort (List.replicate 500000 'a') (fun c hc => List.eq_of_mem_replicate hc) ?_
  rw [List.length_replicate]
  decide

end Run

end PathSieve
