import PathSieve.Proofs.Settings.Account
import PathSieve.Proofs.Settings.Draft

namespace PathSieve.Settings

open Toml Toml.Layout
open Policy (Kind)

variable {settings : Settings} {o : Outline} {es : Entries}

lemma node?_of_mem (hes : es.names.Nodup) {e : Key × Node} (he : e ∈ es) :
    Entries.node? e.1.name es = some e.2 := by
  induction es with
  | nil => cases he
  | cons e' es ih =>
    rw [Entries.names, List.map_cons, List.nodup_cons] at hes
    rcases List.mem_cons.mp he with rfl | he
    · exact node?_cons_self rfl
    · have hne : e'.1.name ≠ e.1.name := fun h => hes.1 (h ▸ List.mem_map_of_mem he)
      rw [node?_cons_of_ne hne, ih hes.2 he]

lemma kind_of_policyAt {kind? : Option Kind} {node : Node} (h : PolicyAt kind? (some node)) :
    ∃ k, kind? = some k ∧ GivesKind node k := by
  cases h with
  | present k span => exact ⟨k, rfl, .name span k⟩

lemma lists_of_tableAt {table : Option (Origin × List Field)} {node : Node} {kind : Kind}
    (h : TableAt table (some node))
    (hset : ((table.map (·.2)).getD []).Perm (settings.fields kind)) :
    ∃ fs, GivesLists (fieldNames kind) node fs ∧ fs.Perm (settings.fields kind) := by
  cases h with
  | @present es fs span origin hes =>
    exact ⟨fs, .table span origin hes (fieldNames_of_perm hset), hset⟩

lemma holds_of_shows (hes : o.Shows es) (hset : o.Sets settings) {e : Key × Node} (he : e ∈ es) :
    settings.Holds e := by
  have hnode := node?_of_mem hes.nodup he
  have hname := hes.known _ (List.mem_map_of_mem he)
  obtain ⟨key, node⟩ := e
  dsimp only at hnode hname
  rcases mem_sectionNames.mp hname with hname | ⟨kind, hname⟩
  · have hat := hes.policy
    rw [← hname, hnode] at hat
    obtain ⟨k, hk, hkind⟩ := kind_of_policyAt hat
    exact .policy hname hkind (hset.policy ▸ hk)
  · have hat := hes.table kind
    rw [← hname, hnode] at hat
    obtain ⟨fs, hlists, hfs⟩ := lists_of_tableAt hat (hset.fields kind)
    exact .lists hname hlists hfs

lemma policy_of_not_mem (hes : o.Shows es) (hset : o.Sets settings)
    (h : policyName ∉ es.names) : settings.policy = none := by
  have hat := hes.policy
  rw [node?_eq_none.mpr h, hset.policy] at hat
  generalize settings.policy = kind? at hat
  cases hat
  rfl

lemma fields_of_not_mem (hes : o.Shows es) (hset : o.Sets settings) {kind : Kind}
    (h : kind.name ∉ es.names) : settings.fields kind = [] := by
  have hat := hes.table kind
  have hperm := hset.fields kind
  rw [node?_eq_none.mpr h] at hat
  generalize o.table kind = table at hat hperm
  cases hat
  exact List.nil_perm.mp hperm

lemma ofNode_of_shows (hes : o.Shows es) (hset : o.Sets settings) (span : Option Span)
    (origin : Origin) : ofNode (.table span origin es) = .ok settings := by
  apply ofNode_of_accounts
  exact ⟨fun _ he => holds_of_shows hes hset he, policy_of_not_mem hes hset,
    fun _ => fields_of_not_mem hes hset⟩

end PathSieve.Settings
