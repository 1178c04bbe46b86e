import PathSieve.Proofs.Run

namespace PathSieve.Run

variable (policy : Policy) (diagnostics : Bool) (capacity : Option ℕ)

lemma value_ofListing_error {listed : Logged (Except Failure (List Text))} {e : Failure}
    (h : listed.value = .error e) :
    (ofListing policy diagnostics capacity listed).value = .error e := by
  rw [ofListing, write, h]
  rfl

lemma value_ofListing_ok {listed : Logged (Except Failure (List Text))} {raws : List Text}
    (h : listed.value = .ok raws) :
    (ofListing policy diagnostics capacity listed).value =
      (report policy diagnostics capacity raws).value := by
  rw [report, ofListing, ofListing, write, write, h]

lemma value_report_bounded (room : ℕ) (raws : List Text) {whole : Report}
    (h : (report policy diagnostics none raws).value = .ok whole) :
    (report policy diagnostics (some room) raws).value =
      if Utf8.size whole.output ≤ room then .ok whole else .error (.system .noRoom) := by
  rw [value_report] at h
  obtain rfl := Except.ok.inj h
  rw [value_report_of_capacity]
  exact if_congr (by simp) rfl rfl

lemma value_report_bounded_ok (room : ℕ) (raws : List Text) (r : Report) :
    (report policy diagnostics (some room) raws).value = .ok r ↔
      (report policy diagnostics none raws).value = .ok r ∧ Utf8.size r.output ≤ room := by
  have hwhole := value_report policy diagnostics raws
  rw [value_report_bounded policy diagnostics room raws hwhole, hwhole]
  constructor
  · intro h
    obtain ⟨hfits, h⟩ := ite_eq_iff.mp h |>.resolve_right (by simp)
    exact ⟨h, Except.ok.inj h ▸ hfits⟩
  · rintro ⟨h, hfits⟩
    obtain rfl := Except.ok.inj h
    exact if_pos hfits

lemma value_report_bounded_error (room : ℕ) (raws : List Text) (e : Failure) :
    (report policy diagnostics (some room) raws).value = .error e ↔
      e = .system .noRoom ∧
        ∃ r, (report policy diagnostics none raws).value = .ok r ∧ room < Utf8.size r.output := by
  have hwhole := value_report policy diagnostics raws
  rw [value_report_bounded policy diagnostics room raws hwhole, hwhole]
  constructor
  · intro h
    obtain ⟨hlong, h⟩ := ite_eq_iff.mp h |>.resolve_left (by simp)
    exact ⟨(Except.error.inj h).symm, _, rfl, Nat.not_le.mp hlong⟩
  · rintro ⟨rfl, r, h, hlong⟩
    obtain rfl := Except.ok.inj h
    exact if_neg (Nat.not_le.mpr hlong)

theorem ofListing_bounded (room : ℕ) (listed : Logged (Except Failure (List Text))) :
    (∀ e, (ofListing policy diagnostics none listed).value = .error e ↔ listed.value = .error e) ∧
      (∀ r, (ofListing policy diagnostics (some room) listed).value = .ok r ↔
        (ofListing policy diagnostics none listed).value = .ok r ∧ Utf8.size r.output ≤ room) ∧
      ∀ e, (ofListing policy diagnostics (some room) listed).value = .error e ↔
        listed.value = .error e ∨ e = .system .noRoom ∧
          ∃ r, (ofListing policy diagnostics none listed).value = .ok r ∧
            room < Utf8.size r.output := by
  cases hlisted : listed.value with
  | error e =>
    rw [value_ofListing_error _ _ _ hlisted, value_ofListing_error _ _ _ hlisted]
    simp
  | ok raws =>
    rw [value_ofListing_ok _ _ _ hlisted, value_ofListing_ok _ _ _ hlisted]
    refine ⟨fun e => ?_, value_report_bounded_ok policy diagnostics room raws, fun e => ?_⟩
    · rw [value_report]
      simp
    · rw [value_report_bounded_error]
      exact (or_iff_right (by simp)).symm

-- A buffer that is too small for the output is left with the beginning of it.
theorem bytes_write (room : ℕ) {listed : Logged (Except Failure (List Text))} {raws : List Text}
    (h : listed.value = .ok raws) :
    (write policy diagnostics (some room) listed).value.buffer.bytes =
      (Utf8.encode (Report.ofPaths policy diagnostics (raws.map Listed.strip)).output).take
        room := by
  rw [write, h, ← ofRecords_evaluate]
  exact bytes_steps policy diagnostics (start (some room)) rfl raws

example : (report (.denylist .standard) false (some 9) ["é/".toList]).value =
    .error (.system .noRoom) := rfl

end PathSieve.Run
