import PathSieve.Proofs.Listing.Input
import PathSieve.Proofs.Path.Listed
import PathSieve.Proofs.Run.Legible

namespace PathSieve.Run

open Listing.Input (Source)

lemma newline_notMem_strip {raws : List Text} (h : ∀ raw ∈ raws, '\n' ∉ raw) :
    ∀ path ∈ raws.map Listed.strip, '\n' ∉ path := by
  intro path hpath
  obtain ⟨raw, hraw, rfl⟩ := List.mem_map.mp hpath
  exact fun hmem => h raw hraw ((Listed.strip_suffix raw).subset hmem)

theorem report_of_input (policy : Policy) (diagnostics : Bool) {a b : Bytes} {as bs : List Text}
    (ha : (Source.ofBytes a).list.1.value = .ok as)
    (hb : (Source.ofBytes b).list.1.value = .ok bs) :
    ∃ r s, (report policy diagnostics none as).value = .ok r ∧
      (report policy diagnostics none bs).value = .ok s ∧
      (r.output = s.output ↔ as.map Listed.strip = bs.map Listed.strip) ∧
      r.IsLegible policy diagnostics (as.map Listed.strip) ∧
      s.IsLegible policy diagnostics (bs.map Listed.strip) := by
  have has := newline_notMem_strip fun raw hraw => Listing.Input.newline_notMem ha hraw
  have hbs := newline_notMem_strip fun raw hraw => Listing.Input.newline_notMem hb hraw
  refine ⟨_, _, value_report policy diagnostics as, value_report policy diagnostics bs, ?_,
    isLegible_ofPaths policy diagnostics has, isLegible_ofPaths policy diagnostics hbs⟩
  exact ⟨eq_of_output_eq policy diagnostics has hbs, fun h => by rw [h]⟩

theorem report_of_input_marked :
    (Source.ofBytes (Utf8.encode "./d/\n\n, True\r\n".toList)).list.1.value =
        .ok ["./d/".toList, ", True".toList] ∧
      (Source.ofBytes (Utf8.encode "d/\n, True".toList)).list.1.value =
        .ok ["d/".toList, ", True".toList] ∧
      ∃ r s,
        (report (.denylist .standard) true none ["./d/".toList, ", True".toList]).value = .ok r ∧
        (report (.denylist .standard) true none ["d/".toList, ", True".toList]).value = .ok s ∧
        r.output = s.output ∧
        r.IsLegible (.denylist .standard) true ["d/".toList, ", True".toList] := by
  have ha : (Source.ofBytes (Utf8.encode "./d/\n\n, True\r\n".toList)).list.1.value =
      .ok ["./d/".toList, ", True".toList] :=
    Listing.Input.value_list_encode ["./d/".toList, [], ", True\r".toList] (by decide)
  have hb : (Source.ofBytes (Utf8.encode "d/\n, True".toList)).list.1.value =
      .ok ["d/".toList, ", True".toList] :=
    Listing.Input.value_list_encode ["d/".toList, ", True".toList] (by decide)
  obtain ⟨r, s, hr, hs, heq, hlegible, -⟩ := report_of_input (.denylist .standard) true ha hb
  exact ⟨ha, hb, r, s, hr, hs, heq.mpr rfl, hlegible⟩

end PathSieve.Run
