import TensorContraction.Export.Rendering
import TensorContraction.Proofs.Canonical
import TensorContraction.Proofs.Journal

/-!
# The order in which failures are reported

An export is rendered in stages, and each stage deals with all contractions before the next
begins.  What is reported first is therefore not the failure of the first record that fails:
a record that fails late comes after every record that fails early, wherever they stand in
the export.  Within a stage the order is that of the export.

## Main definitions

* `Record.rejection?`, `Record.lateRejection?` — why a record fails, early or late.
* `rejectionsByStage`, `rejectionsByRecord` — all rejections, in two orders.

## Main results

* `render_reports_by_stage` — failures are reported stage by stage.
* `not_reports_by_record` — they are not reported record by record.
-/

namespace TensorContraction

open Check Event

/-! ### Rejections -/

/-- Whether a target shows the antisymmetrizers of a contraction. -/
def Target.showsTerms : Target → Bool
  | .tex => false
  | .sequant | .json => true

namespace Record

/-- Why a record has no contraction. -/
def rejection? (r : Record) : Option Rejection := failure? (Contraction.ofRecord r)

/-- Why the contraction of a record has no antisymmetrizers. -/
def lateRejection? (r : Record) : Option Rejection :=
  (Contraction.ofRecord r).toOption.bind fun c => failure? (Symmetrization.ofContraction c)

theorem number_of_rejection? {r : Record} {e : Rejection} (h : r.rejection? = some e) :
    e.number = r.id := by
  unfold rejection? Contraction.ofRecord at h
  cases hb : Contraction.build r with
  | ok c => simp [hb, Except.mapError, failure?] at h
  | error v =>
    obtain rfl : ⟨r.id, v⟩ = e := by simpa [hb, Except.mapError, failure?] using h
    rfl

theorem number_of_lateRejection? {r : Record} {e : Rejection} (h : r.lateRejection? = some e) :
    e.number = r.id := by
  obtain ⟨c, hc, h⟩ := Option.bind_eq_some_iff.mp h
  have hc : Contraction.ofRecord r = .ok c := by
    cases hr : Contraction.ofRecord r with
    | error v => simp [hr, Except.toOption] at hc
    | ok d => simpa [hr, Except.toOption] using hc
  obtain ⟨vs, hy⟩ := Contraction.ofRecord_eq_ok_iff.mp hc
  unfold Symmetrization.ofContraction at h
  cases hb : Symmetrization.build c with
  | ok s => simp [hb, Except.mapError, failure?] at h
  | error v =>
    obtain rfl : ⟨c.number, v⟩ = e := by simpa [hb, Except.mapError, failure?] using h
    exact hy.id_eq.symm

end Record

/-- The rejections of some records, those of the first stage before those of the second. -/
def rejectionsByStage (t : Target) (records : List Record) : List Rejection :=
  records.filterMap Record.rejection?
    ++ if t.showsTerms then records.filterMap Record.lateRejection? else []

/-- The rejections of some records, in the order of the records. -/
def rejectionsByRecord (t : Target) (records : List Record) : List Rejection :=
  records.filterMap fun r => r.rejection? <|> if t.showsTerms then r.lateRejection? else none

/-- The contractions of the records that have one. -/
def accepted (records : List Record) : List Contraction :=
  records.filterMap fun r => (Contraction.ofRecord r).toOption

theorem failure?_term (c : Contraction) :
    failure? (Term.ofContraction c) = failure? (Symmetrization.ofContraction c) := by
  unfold Term.ofContraction
  cases Symmetrization.ofContraction c <;> rfl

/-- The second stage sees only what the first one lets pass. -/
theorem filterMap_accepted (records : List Record) :
    (accepted records).filterMap (fun c => failure? (Term.ofContraction c)) =
      records.filterMap Record.lateRejection? := by
  simp only [accepted, List.filterMap_filterMap, failure?_term]
  rfl

/-! ### Rendering -/

/-- Reading warns of nothing. -/
theorem warnings_reading (r : Reading) : warnings r.events = [] := by
  unfold Reading.events
  rw [warnings_append, warnings, List.filterMap_map]
  have hread : List.filterMap (rejection? ∘ fun record : Record =>
      Event.recordRead record.id record.vertices.length record.arcs.length) r.records = [] :=
    List.filterMap_eq_nil_iff.mpr fun _ _ => rfl
  rw [hread]
  cases r.error? <;> rfl

section Write

variable {o : Options} {cs : List Contraction}

theorem write_of_showsTerms (cs : List Contraction) (ht : o.target.showsTerms = true) :
    ∃ document : List Term → String,
      write o cs = terms o.keepGoing cs >>= fun ts => pure (document ts) := by
  unfold write
  cases hto : o.target with
  | tex => simp [hto, Target.showsTerms] at ht
  | sequant => exact ⟨Sequant.document, rfl⟩
  | json => exact ⟨Structured.document, rfl⟩

theorem write_of_not_showsTerms (cs : List Contraction) (ht : ¬ o.target.showsTerms = true) :
    write o cs = pure (Tex.document cs) := by
  unfold write
  cases hto : o.target with
  | tex => rfl
  | sequant => simp [hto, Target.showsTerms] at ht
  | json => simp [hto, Target.showsTerms] at ht

theorem write_outcome_of_error {e : Rejection} (ht : o.target.showsTerms = true)
    (h : (terms o.keepGoing cs).outcome = .error e) : (write o cs).outcome = .error e := by
  obtain ⟨document, hw⟩ := write_of_showsTerms cs ht
  rw [hw, Journal.bind_of_error h]

/-- Whether writing fails or not, it warns of what the terms warn of. -/
theorem warnings_write :
    warnings (write o cs).events =
      if o.target.showsTerms then warnings (terms o.keepGoing cs).events else [] := by
  split
  · next ht =>
    obtain ⟨document, hw⟩ := write_of_showsTerms cs ht
    rw [hw]
    cases h : (terms o.keepGoing cs).outcome with
    | error e => rw [Journal.bind_of_error h]
    | ok ts =>
      rw [Journal.bind_of_ok h, warnings_append]
      exact List.append_nil _
  · next ht =>
    rw [write_of_not_showsTerms cs ht]
    rfl

theorem exists_write_outcome_of_goOn (cs : List Contraction) (hgo : o.keepGoing = true) :
    ∃ output, (write o cs).outcome = .ok output := by
  by_cases ht : o.target.showsTerms = true
  · obtain ⟨document, hw⟩ := write_of_showsTerms cs ht
    have hterms : (terms o.keepGoing cs).outcome =
        .ok (cs.filterMap fun c => (Term.ofContraction c).toOption) := by
      rw [hgo]
      exact Journal.each_outcome_of_goOn
    exact ⟨_, by rw [hw, Journal.bind_of_ok hterms]; rfl⟩
  · exact ⟨_, by rw [write_of_not_showsTerms cs ht]; rfl⟩

end Write

section Render

variable {text : String} {records : List Record} {o : Options} {cs : List Contraction}
  {e : Rejection}

theorem journal_outcome_eq_ok_iff :
    (Reading.ofText text).journal.outcome = .ok records ↔ Record.readAll text = .ok records :=
  Check.mapError_eq_ok_iff

theorem render_outcome_of_early_error (h : Record.readAll text = .ok records)
    (hc : (contractions o.keepGoing records).outcome = .error e) :
    (render o text).outcome = .error (.rejected e) := by
  unfold render
  rw [Journal.bind_of_ok (journal_outcome_eq_ok_iff.mpr h),
    Journal.bind_of_error (Journal.mapError_outcome_of_error hc)]

theorem render_outcome_of_late_error (h : Record.readAll text = .ok records)
    (hc : (contractions o.keepGoing records).outcome = .ok cs)
    (hw : (write o cs).outcome = .error e) : (render o text).outcome = .error (.rejected e) := by
  unfold render
  rw [Journal.bind_of_ok (journal_outcome_eq_ok_iff.mpr h),
    Journal.bind_of_ok (Journal.mapError_outcome_of_ok hc),
    Journal.bind_of_error (Journal.mapError_outcome_of_error hw)]

/-- Rendering that goes on comes to its end, and warns of what both stages warn of. -/
theorem warnings_render (h : Record.readAll text = .ok records)
    (hc : (contractions o.keepGoing records).outcome = .ok cs) {output : String}
    (hw : (write o cs).outcome = .ok output) :
    warnings (render o text).events =
      warnings (contractions o.keepGoing records).events ++ warnings (write o cs).events := by
  unfold render
  rw [Journal.bind_of_ok (journal_outcome_eq_ok_iff.mpr h),
    Journal.bind_of_ok (Journal.mapError_outcome_of_ok hc),
    Journal.bind_of_ok (Journal.mapError_outcome_of_ok hw)]
  simp only [warnings_append]
  have hread : warnings (Reading.ofText text).journal.events = [] := warnings_reading _
  have hdone : warnings ((Journal.note (.rendered records.length o.target) :
      Journal RenderError Unit) >>= fun _ => pure output).events = [] := rfl
  rw [hread, hdone, List.nil_append, List.append_nil]
  rfl

theorem contractions_outcome_of_goOn (records : List Record) :
    (contractions true records).outcome = .ok (accepted records) :=
  Journal.each_outcome_of_goOn

/-- Rendering that goes on warns of all failures, stage by stage. -/
theorem warnings_render_of_goOn (h : Record.readAll text = .ok records)
    (hgo : o.keepGoing = true) :
    warnings (render o text).events = rejectionsByStage o.target records := by
  have hall : (contractions o.keepGoing records).outcome = .ok (accepted records) := by
    rw [hgo]
    exact contractions_outcome_of_goOn records
  obtain ⟨output, hw⟩ := exists_write_outcome_of_goOn (accepted records) hgo
  rw [warnings_render h hall hw, warnings_write, rejectionsByStage, ← filterMap_accepted, hgo]
  congr 1
  · exact Journal.warnings_each_of_goOn fun _ _ => rfl
  · split
    · exact Journal.warnings_each_of_goOn fun _ _ => rfl
    · rfl

/-! ### The order of failures -/

/-- **Failures are reported stage by stage.**  Without going on, rendering ends with the first
of them; going on, it warns of all of them; each names its record. -/
theorem render_reports_by_stage (h : Record.readAll text = .ok records) (o : Options) :
    (o.keepGoing = false → ∀ e ∈ (rejectionsByStage o.target records).head?,
      (render o text).outcome = .error (.rejected e)) ∧
    (o.keepGoing = true →
      warnings (render o text).events = rejectionsByStage o.target records) ∧
    ∀ (r : Record) (e : Rejection), r.rejection? = some e ∨ r.lateRejection? = some e →
      e.number = r.id := by
  refine ⟨fun hgo e he => ?_, fun hgo => ?_, fun r e he => ?_⟩
  · have hstop : (contractions o.keepGoing records).outcome =
        records.mapM Contraction.ofRecord := by
      rw [hgo]
      exact Journal.each_outcome_of_stop
    rw [rejectionsByStage, List.head?_append, Option.mem_def] at he
    cases hearly : (records.filterMap Record.rejection?).head? with
    | some d =>
      obtain rfl : d = e := by simpa [hearly] using he
      exact render_outcome_of_early_error h (hstop.trans (Check.mapM_eq_error_of_head? hearly))
    | none =>
      -- all records pass the first stage, and the second one starts from all of them
      have hall := hstop.trans (Check.mapM_eq_ok_of_head? hearly)
      refine render_outcome_of_late_error h hall ?_
      rw [hearly, Option.none_or] at he
      split at he
      · next ht =>
        refine write_outcome_of_error ht ?_
        rw [hgo]
        refine Journal.each_outcome_of_stop.trans (Check.mapM_eq_error_of_head? ?_)
        rw [← filterMap_accepted] at he
        exact he
      · simp at he
  · exact warnings_render_of_goOn h hgo
  · exact he.elim Record.number_of_rejection? Record.number_of_lateRejection?

end Render

/-! ### An export with failures of both kinds -/

/-- Two records: the result of the first has an index that is on no tensor, the second counts
an external arc too many. -/
def lateThenEarly : String :=
  "[CONTR] # 1 [RESULT] R F (H,) [FACTOR] 1 1 1 [#VERTICES] 1 1 [SVERTEX] 1 [#ARCS] 0 0 "
    ++ "[VERTICES] T F (H,) [ARCS] [XARCS] [CONTR_STRING] 1 1 1 T 1 2 [RESULT_STRING] 1 1 1 1 1\n"
    ++ "[CONTR] # 2 [RESULT] R F (,) [FACTOR] 1 1 1 [#VERTICES] 0 0 [SVERTEX] [#ARCS] 0 1 "
    ++ "[VERTICES] [ARCS] [XARCS] [CONTR_STRING] [RESULT_STRING]\n[END]\n"

def lateRecord : Record where
  id := 1
  result := ⟨"R", false, [⟨[.occupied], []⟩]⟩
  factor := ⟨1, 1, 1⟩
  vertexCount := 1
  operatorCount := 1
  superVertices := [1]
  arcCount := 0
  externalArcCount := 0
  vertices := [⟨"T", false, [⟨[.occupied], []⟩]⟩]
  arcs := []
  externalArcs := []
  vertexRows := [⟨1, 1, 1, true, 1, 2⟩]
  resultRows := [⟨1, 1, 1, 1, 1⟩]

def earlyRecord : Record where
  id := 2
  result := ⟨"R", false, [⟨[], []⟩]⟩
  factor := ⟨1, 1, 1⟩
  vertexCount := 0
  operatorCount := 0
  superVertices := []
  arcCount := 0
  externalArcCount := 1
  vertices := []
  arcs := []
  externalArcs := []
  vertexRows := []
  resultRows := []

theorem readAll_lateThenEarly :
    Record.readAll lateThenEarly = .ok [lateRecord, earlyRecord] := by
  unfold Record.readAll Reading.ofText Text.words lateThenEarly
  -- the characters of each part are listed first, as decoding the whole text is slow
  simp only [String.toList_append]
  iterate 4 rw [String.toList_ofList]
  decide +kernel

theorem lateThenEarly_reports_by_stage :
    Record.readAll lateThenEarly = .ok [lateRecord, earlyRecord] ∧
      (render ⟨.sequant, false⟩ lateThenEarly).outcome =
        .error (.rejected ⟨2, .countMismatch .externalArc 1 0⟩) ∧
      warnings (render ⟨.json, true⟩ lateThenEarly).events =
        [⟨2, .countMismatch .externalArc 1 0⟩, ⟨1, .noOrigin 0 .occupied .creator⟩] := by
  refine ⟨readAll_lateThenEarly, ?_, ?_⟩
  · exact (render_reports_by_stage readAll_lateThenEarly ⟨.sequant, false⟩).1 rfl _
      (by decide +kernel)
  · rw [(render_reports_by_stage readAll_lateThenEarly ⟨.json, true⟩).2.1 rfl]
    decide +kernel

/-- **Failures are not reported record by record.** -/
theorem not_reports_by_record :
    ¬ ∀ (text : String) (records : List Record) (o : Options),
      Record.readAll text = .ok records →
        (o.keepGoing = false → ∀ e ∈ (rejectionsByRecord o.target records).head?,
          (render o text).outcome = .error (.rejected e)) ∧
        (o.keepGoing = true →
          warnings (render o text).events = rejectionsByRecord o.target records) := by
  intro h
  obtain ⟨hstop, -⟩ := h _ _ ⟨.sequant, false⟩ readAll_lateThenEarly
  have hfirst := hstop rfl ⟨1, .noOrigin 0 .occupied .creator⟩ (by decide +kernel)
  have hactual : (render ⟨.sequant, false⟩ lateThenEarly).outcome =
      .error (.rejected ⟨2, .countMismatch .externalArc 1 0⟩) := by
    refine render_outcome_of_early_error readAll_lateThenEarly ?_
    exact Journal.each_outcome_of_stop.trans (by decide +kernel)
  rw [hactual] at hfirst
  simp at hfirst

end TensorContraction
