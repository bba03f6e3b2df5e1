import TensorContraction.Proofs.Export
import TensorContraction.Proofs.Stages

/-!
# Skipping is deleting

Rendering that goes on passes over the records that fail, some of them in the first stage and
some in the second.  What it writes is what would be written if these records were not in the
export at all: nothing of them is left in the order of the others, in the grouping of terms or
in a header.  Each record that is passed over leaves one warning, and the others leave none.

So stopping and going on differ only where something fails, and an export without the failing
records is rendered alike by both.

## Main definitions

* `Record.RendersAs` — a record gets through all stages that a target needs.
* `Record.rejectionFor?` — why it does not.
* `SkipsAsDeleting` — what rendering makes of the records that fail.

## Main results

* `skips_as_deleting` — skipping records is deleting them.
-/

namespace TensorContraction

open Check Event Spelling Text

/-! ### Records that can be rendered -/

namespace Record

/-- A record gets through the stages that a target needs. -/
def RendersAs (r : Record) (t : Target) : Prop :=
  ∃ c, Contraction.ofRecord r = .ok c ∧
    (t.showsTerms = true → ∃ s, Symmetrization.ofContraction c = .ok s)

/-- Why a record does not get through the stages that a target needs. -/
def rejectionFor? (t : Target) (r : Record) : Option Rejection :=
  r.rejection? <|> if t.showsTerms then r.lateRejection? else none

variable {r : Record} {t : Target}

theorem rejectionFor?_of_error {e : Rejection} (h : Contraction.ofRecord r = .error e) :
    r.rejectionFor? t = some e := by
  simp [rejectionFor?, rejection?, h, failure?]

theorem rejectionFor?_of_ok {c : Contraction} (h : Contraction.ofRecord r = .ok c) :
    r.rejectionFor? t =
      if t.showsTerms then failure? (Symmetrization.ofContraction c) else none := by
  simp [rejectionFor?, rejection?, lateRejection?, h, failure?, Except.toOption]

theorem rendersAs_iff : r.RendersAs t ↔ r.rejectionFor? t = none := by
  unfold RendersAs
  cases hc : Contraction.ofRecord r with
  | error e => simp [rejectionFor?_of_error hc]
  | ok c =>
    rw [rejectionFor?_of_ok hc]
    cases hs : Symmetrization.ofContraction c with
    | error e => simp [hs, failure?]
    | ok s => simp [hs, failure?]

instance : Decidable (r.RendersAs t) := decidable_of_iff _ rendersAs_iff.symm

theorem number_of_rejectionFor? {e : Rejection} (h : r.rejectionFor? t = some e) :
    e.number = r.id := by
  rw [rejectionFor?] at h
  cases hr : r.rejection? with
  | some d =>
    obtain rfl : d = e := by simpa [hr] using h
    exact number_of_rejection? hr
  | none =>
    have hlate : (if t.showsTerms then r.lateRejection? else none) = some e := by
      simpa [hr] using h
    split at hlate
    · exact number_of_lateRejection? hlate
    · simp at hlate

end Record

/-! ### What is rendered -/

/-- The terms of the records that have one. -/
def acceptedTerms (records : List Record) : List Term :=
  (accepted records).filterMap fun c => (Term.ofContraction c).toOption

/-- The text of the records that can be rendered. -/
def rendering (t : Target) (records : List Record) : String :=
  match t with
  | .tex => Tex.document (accepted records)
  | .sequant => Sequant.document (acceptedTerms records)
  | .json => Structured.document (acceptedTerms records)

/-- Entries that give nothing can be left out before the others are looked at. -/
theorem filterMap_filter_eq {α β : Type} {p : α → Bool} {f : α → Option β} {xs : List α}
    (h : ∀ x ∈ xs, p x = false → f x = none) : (xs.filter p).filterMap f = xs.filterMap f := by
  rw [List.filterMap_filter]
  refine List.filterMap_congr fun x hx => ?_
  split
  · rfl
  · next hp => exact (h x hx (by simpa using hp)).symm

/-- **Records that cannot be rendered leave nothing in the text.** -/
theorem rendering_filter (t : Target) (records : List Record) :
    rendering t (records.filter (·.RendersAs t)) = rendering t records := by
  have hterms (ht : t.showsTerms = true) :
      acceptedTerms (records.filter (·.RendersAs t)) = acceptedTerms records := by
    unfold acceptedTerms accepted
    rw [List.filterMap_filterMap, List.filterMap_filterMap]
    refine filterMap_filter_eq fun r _ hr => ?_
    have hnot : ¬ r.RendersAs t := by simpa using hr
    cases hc : Contraction.ofRecord r with
    | error e => rfl
    | ok c =>
      cases hs : Symmetrization.ofContraction c with
      | error e => simp [Term.ofContraction, hs, Except.toOption, Except.map]
      | ok s => exact absurd ⟨c, hc, fun _ => ⟨s, hs⟩⟩ hnot
  cases t with
  | tex =>
    refine congrArg Tex.document (filterMap_filter_eq fun r _ hr => ?_)
    have hnot : ¬ r.RendersAs .tex := by simpa using hr
    cases hc : Contraction.ofRecord r with
    | error e => rfl
    | ok c => exact absurd ⟨c, hc, fun ht => by simp [Target.showsTerms] at ht⟩ hnot
  | sequant => exact congrArg Sequant.document (hterms rfl)
  | json => exact congrArg Structured.document (hterms rfl)

section Render

variable {text : String} {records : List Record} {t : Target}

theorem write_outcome_of_goOn (t : Target) (records : List Record) :
    (write ⟨t, true⟩ (accepted records)).outcome = .ok (rendering t records) := by
  have hterms : (terms true (accepted records)).outcome = .ok (acceptedTerms records) :=
    Journal.each_outcome_of_goOn
  cases t with
  | tex => rfl
  | sequant => exact Journal.bind_outcome_eq_ok_iff.mpr ⟨_, hterms, rfl⟩
  | json => exact Journal.bind_outcome_eq_ok_iff.mpr ⟨_, hterms, rfl⟩

theorem render_outcome_eq_ok_iff {o : Options} {output : String} :
    (render o text).outcome = .ok output ↔ ∃ records, Record.readAll text = .ok records ∧
      ∃ cs, (contractions o.keepGoing records).outcome = .ok cs ∧
        (write o cs).outcome = .ok output := by
  unfold render
  simp only [Journal.bind_outcome_eq_ok_iff, journal_outcome_eq_ok_iff, Journal.mapError,
    Check.mapError_eq_ok_iff]
  constructor
  · rintro ⟨records, hread, cs, hcs, output', hw, -, -, hout⟩
    obtain rfl : output' = output := Except.ok.inj hout
    exact ⟨records, hread, cs, hcs, hw⟩
  · rintro ⟨records, hread, cs, hcs, hw⟩
    exact ⟨records, hread, cs, hcs, output, hw, (), rfl, rfl⟩

/-- Rendering that goes on succeeds on every text that can be read. -/
theorem render_outcome_of_goOn (h : Record.readAll text = .ok records) (t : Target) :
    (render ⟨t, true⟩ text).outcome = .ok (rendering t records) :=
  render_outcome_eq_ok_iff.mpr ⟨records, h, accepted records, contractions_outcome_of_goOn records,
    write_outcome_of_goOn t records⟩

/-- A text that cannot be read is reported as such, whatever is asked for. -/
theorem render_outcome_of_unreadable {e : ReadError} (h : Record.readAll text = .error e)
    (o : Options) : (render o text).outcome = .error (.unreadable e) := by
  have hread : (Reading.ofText text).journal.outcome = .error (.unreadable e) := by
    change ((Reading.ofText text).toExcept.mapError RenderError.unreadable) = _
    rw [show (Reading.ofText text).toExcept = .error e from h]
    rfl
  unfold render
  rw [Journal.bind_of_error hread]

theorem contractions_stop_eq_goOn (h : ∀ r ∈ records, r.RendersAs t) :
    contractions false records = contractions true records := by
  refine Journal.each_stop_eq_goOn fun r hr => ?_
  obtain ⟨c, hc, -⟩ := h r hr
  exact ⟨c, hc⟩

theorem write_stop_eq_goOn (h : ∀ r ∈ records, r.RendersAs t) :
    write ⟨t, false⟩ (accepted records) = write ⟨t, true⟩ (accepted records) := by
  have hterms (ht : t.showsTerms = true) :
      terms false (accepted records) = terms true (accepted records) := by
    refine Journal.each_stop_eq_goOn fun c hc => ?_
    obtain ⟨r, hr, hrc⟩ := List.mem_filterMap.mp hc
    obtain ⟨c', hc', hs⟩ := h r hr
    obtain ⟨s, hs⟩ := hs ht
    obtain rfl : c' = c := by simpa [hc', Except.toOption] using hrc
    exact ⟨⟨c', s⟩, by rw [Term.ofContraction, hs]; rfl⟩
  cases t with
  | tex => rfl
  | sequant => simp only [write, hterms rfl]
  | json => simp only [write, hterms rfl]

/-- Where every record can be rendered, stopping and going on do the same. -/
theorem render_stop_eq_goOn (h : Record.readAll text = .ok records)
    (hall : ∀ r ∈ records, r.RendersAs t) : render ⟨t, false⟩ text = render ⟨t, true⟩ text := by
  have hread := journal_outcome_eq_ok_iff.mpr h
  have hcs : ((contractions true records).mapError RenderError.rejected).outcome =
      .ok (accepted records) :=
    Journal.mapError_outcome_of_ok (contractions_outcome_of_goOn records)
  unfold render
  rw [Journal.bind_of_ok hread, Journal.bind_of_ok hread]
  simp only [contractions_stop_eq_goOn hall]
  rw [Journal.bind_of_ok hcs, Journal.bind_of_ok hcs, write_stop_eq_goOn hall]

/-- Rendering that stops succeeds only if every record can be rendered. -/
theorem rendersAs_of_render {output : String} (h : Record.readAll text = .ok records)
    (hout : (render ⟨t, false⟩ text).outcome = .ok output) : ∀ r ∈ records, r.RendersAs t := by
  obtain ⟨records', h', cs, hcs, hw⟩ := render_outcome_eq_ok_iff.mp hout
  obtain rfl : records = records' := Except.ok.inj (h.symm.trans h')
  have hmap := Check.mapM_eq_ok_iff.mp (Journal.each_outcome_of_stop.symm.trans hcs)
  intro r hr
  obtain ⟨c, hc, hrc⟩ := Check.exists_right_of_forall₂ hmap hr
  refine ⟨c, hrc, fun ht => ?_⟩
  -- the second stage sees every contraction
  obtain ⟨document, hdocument⟩ := write_of_showsTerms (o := ⟨t, false⟩) cs ht
  rw [hdocument] at hw
  obtain ⟨ts, hts, -⟩ := Journal.bind_outcome_eq_ok_iff.mp hw
  have hmap := Check.mapM_eq_ok_iff.mp (Journal.each_outcome_of_stop.symm.trans hts)
  obtain ⟨term, -, hterm⟩ := Check.exists_right_of_forall₂ hmap hc
  obtain ⟨s, hs, -⟩ := Check.map_eq_ok_iff.mp hterm
  exact ⟨s, hs⟩

end Render

/-! ### One warning for each record -/

/-- What is found in two rounds, the second only where the first finds nothing, is what is
found in one. -/
theorem filterMap_append_perm {α β : Type} {f g : α → Option β} {xs : List α}
    (h : ∀ x ∈ xs, (f x).isSome → g x = none) :
    (xs.filterMap f ++ xs.filterMap g).Perm (xs.filterMap fun x => f x <|> g x) := by
  induction xs with
  | nil => exact .refl _
  | cons x xs ih =>
    rcases List.forall_mem_cons.mp h with ⟨hx, hxs⟩
    have hrest := ih hxs
    cases hf : f x with
    | some b =>
      have hg : g x = none := hx (by simp [hf])
      rw [List.filterMap_cons_some hf, List.filterMap_cons_none hg,
        List.filterMap_cons_some (by rw [hf]; rfl)]
      exact hrest.cons b
    | none =>
      cases hg : g x with
      | none =>
        rw [List.filterMap_cons_none hf, List.filterMap_cons_none hg,
          List.filterMap_cons_none (by rw [hf, hg]; rfl)]
        exact hrest
      | some b =>
        rw [List.filterMap_cons_none hf, List.filterMap_cons_some hg,
          List.filterMap_cons_some (by rw [hf, hg]; rfl)]
        exact List.perm_middle.trans (hrest.cons b)

/-- What is found stands against the entries where something is found. -/
theorem forall₂_filter_filterMap {α β : Type} {p : α → Bool} {f : α → Option β} {xs : List α}
    (h : ∀ x ∈ xs, p x = true ↔ (f x).isSome) :
    List.Forall₂ (fun x b => f x = some b) (xs.filter p) (xs.filterMap f) := by
  induction xs with
  | nil => exact .nil
  | cons x xs ih =>
    rcases List.forall_mem_cons.mp h with ⟨hx, hxs⟩
    cases hf : f x with
    | none =>
      rw [List.filter_cons_of_neg (by simp [hx, hf]), List.filterMap_cons_none hf]
      exact ih hxs
    | some b =>
      rw [List.filter_cons_of_pos (by simp [hx, hf]), List.filterMap_cons_some hf]
      exact .cons hf (ih hxs)

/-- The failures of both stages are those of the records, one for each that fails. -/
theorem rejectionsByStage_perm (t : Target) (records : List Record) :
    (rejectionsByStage t records).Perm (records.filterMap (·.rejectionFor? t)) := by
  unfold rejectionsByStage
  by_cases ht : t.showsTerms = true
  · rw [if_pos ht]
    refine (filterMap_append_perm fun r _ hr => ?_).trans (.of_eq ?_)
    · -- a record that fails early has no contraction to fail late
      cases hc : Contraction.ofRecord r with
      | error e => simp [Record.lateRejection?, hc, Except.toOption]
      | ok c => simp [Record.rejection?, hc, failure?] at hr
    · simp [Record.rejectionFor?, ht]
  · rw [if_neg ht, List.append_nil]
    exact .of_eq (by simp [Record.rejectionFor?, ht])

theorem forall₂_rejectionFor? (t : Target) (records : List Record) :
    List.Forall₂ (fun r e => r.rejectionFor? t = some e)
      (records.filter fun r => ¬ r.RendersAs t) (records.filterMap (·.rejectionFor? t)) := by
  refine forall₂_filter_filterMap fun r _ => ?_
  simp [Record.rendersAs_iff, Option.isSome_iff_ne_none]

/-! ### Skipping -/

/-- Rendering an export makes nothing of the records that fail, as if they were not in it. -/
structure SkipsAsDeleting (t : Target) (text : String) (records : List Record) : Prop where
  /-- Going on succeeds, with the text that stopping gives for any export of the other
  records. -/
  goesOn : ∃ output, (render ⟨t, true⟩ text).outcome = .ok output ∧
    ∀ other, Record.readAll other = .ok (records.filter (·.RendersAs t)) →
      (render ⟨t, false⟩ other).outcome = .ok output
  /-- There is such an export. -/
  exists_export : ∃ other, Record.readAll other = .ok (records.filter (·.RendersAs t))
  /-- It warns of each record that fails, once and by its number, and of nothing else. -/
  warns : ∃ es, (warnings (render ⟨t, true⟩ text).events).Perm es ∧
    List.Forall₂ (fun r e => r.rejectionFor? t = some e ∧ e.number = r.id)
      (records.filter fun r => ¬ r.RendersAs t) es
  /-- Stopping succeeds exactly if no record fails. -/
  stops_iff : (∃ output, (render ⟨t, false⟩ text).outcome = .ok output) ↔
    ∀ r ∈ records, r.RendersAs t
  /-- Then it gives the same and warns of nothing. -/
  same : (∀ r ∈ records, r.RendersAs t) →
    (render ⟨t, false⟩ text).outcome = (render ⟨t, true⟩ text).outcome ∧
      warnings (render ⟨t, false⟩ text).events = []

/-- **Skipping records is deleting them.**  A text that cannot be read is refused either way. -/
theorem skips_as_deleting (text : String) (t : Target) :
    (∀ e, Record.readAll text = .error e → ∀ keepGoing,
      (render ⟨t, keepGoing⟩ text).outcome = .error (.unreadable e)) ∧
    ∀ records, Record.readAll text = .ok records → SkipsAsDeleting t text records := by
  refine ⟨fun e h keepGoing => render_outcome_of_unreadable h _, fun records h => ?_⟩
  have hwarned : (warnings (render ⟨t, true⟩ text).events).Perm
      (records.filterMap (·.rejectionFor? t)) := by
    rw [warnings_render_of_goOn h rfl]
    exact rejectionsByStage_perm t records
  constructor
  case goesOn =>
    refine ⟨rendering t records, render_outcome_of_goOn h t, fun other hother => ?_⟩
    have hall : ∀ r ∈ records.filter (·.RendersAs t), r.RendersAs t := by
      intro r hr
      simpa using List.of_mem_filter hr
    rw [render_stop_eq_goOn hother hall, render_outcome_of_goOn hother t, rendering_filter]
  case exists_export => exact Record.exists_readAll h List.filter_sublist
  case warns =>
    refine ⟨_, hwarned, (forall₂_rejectionFor? t records).imp fun r e he => ⟨he, ?_⟩⟩
    exact Record.number_of_rejectionFor? he
  case stops_iff =>
    constructor
    · rintro ⟨output, hout⟩
      exact rendersAs_of_render h hout
    · intro hall
      rw [render_stop_eq_goOn h hall]
      exact ⟨_, render_outcome_of_goOn h t⟩
  case same =>
    intro hall
    rw [render_stop_eq_goOn h hall]
    refine ⟨rfl, ?_⟩
    have hnone : records.filterMap (·.rejectionFor? t) = [] := by
      rw [List.filterMap_eq_nil_iff]
      exact fun r hr => Record.rendersAs_iff.mp (hall r hr)
    rw [hnone] at hwarned
    exact hwarned.eq_nil

/-! ### An export with a record to keep -/

/-- A record of a result without indices and of a product without operators. -/
def scalarRecord : Record where
  id := 3
  result := ⟨"E", false, [⟨[], []⟩]⟩
  factor := ⟨1, 1, 1⟩
  vertexCount := 0
  operatorCount := 0
  superVertices := []
  arcCount := 0
  externalArcCount := 0
  vertices := []
  arcs := []
  externalArcs := []
  vertexRows := []
  resultRows := []

/-- How an export spells it. -/
def scalarText : String :=
  "[CONTR] # 3 [RESULT] E F (,) [FACTOR] 1 1 1 [#VERTICES] 0 0 [SVERTEX] [#ARCS] 0 0 "
    ++ "[VERTICES] [ARCS] [XARCS] [CONTR_STRING] [RESULT_STRING]\n"

theorem readAll_scalarText_append :
    Record.readAll (scalarText ++ lateThenEarly) =
      .ok [scalarRecord, lateRecord, earlyRecord] := by
  unfold Record.readAll Reading.ofText Text.words lateThenEarly scalarText
  simp only [String.toList_append]
  iterate 6 rw [String.toList_ofList]
  decide +kernel

theorem readAll_scalarText : Record.readAll (scalarText ++ "[END]\n") = .ok [scalarRecord] := by
  unfold Record.readAll Reading.ofText Text.words scalarText
  simp only [String.toList_append]
  iterate 3 rw [String.toList_ofList]
  decide +kernel

theorem readAll_empty : Record.readAll "" = .error ⟨1, .endOfInput .recordOrFinish⟩ := by
  decide +kernel

/-- Of three records two fail, one in each stage; what is left is an export of its own. -/
theorem scalarText_skips_as_deleting :
    Record.readAll "" = .error ⟨1, .endOfInput .recordOrFinish⟩ ∧
      (render ⟨.sequant, true⟩ "").outcome =
        .error (.unreadable ⟨1, .endOfInput .recordOrFinish⟩) ∧
      Record.readAll (scalarText ++ lateThenEarly) =
        .ok [scalarRecord, lateRecord, earlyRecord] ∧
      Record.readAll (scalarText ++ "[END]\n") = .ok [scalarRecord] ∧
      (render ⟨.sequant, true⟩ (scalarText ++ lateThenEarly)).outcome =
        (render ⟨.sequant, false⟩ (scalarText ++ "[END]\n")).outcome ∧
      (warnings (render ⟨.sequant, true⟩ (scalarText ++ lateThenEarly)).events).length = 2 ∧
      warnings (render ⟨.sequant, false⟩ (scalarText ++ "[END]\n")).events = [] := by
  have hmixed := (skips_as_deleting (scalarText ++ lateThenEarly) .sequant).2 _
    readAll_scalarText_append
  have halone := (skips_as_deleting (scalarText ++ "[END]\n") .sequant).2 _ readAll_scalarText
  have hkept : [scalarRecord, lateRecord, earlyRecord].filter (·.RendersAs .sequant) =
      [scalarRecord] := by
    decide +kernel
  refine ⟨readAll_empty, (skips_as_deleting "" .sequant).1 _ readAll_empty true,
    readAll_scalarText_append, readAll_scalarText, ?_, ?_, ?_⟩
  · obtain ⟨output, hgo, hother⟩ := hmixed.goesOn
    rw [hgo, hother _ (by rw [hkept]; exact readAll_scalarText)]
  · obtain ⟨es, hperm, hes⟩ := hmixed.warns
    rw [hperm.length_eq, ← hes.length_eq]
    decide +kernel
  · exact (halone.same (by decide +kernel)).2

end TensorContraction
