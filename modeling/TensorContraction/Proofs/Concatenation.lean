import TensorContraction.Proofs.Skipping

/-!
# Exports one after the other

Two exports are put together by taking the final word off the first and writing the second behind
it.  No word of the one runs on into the other: what stands in front of a final word ends with a
blank.  No reader goes on into the other either, as the words of an export are those of its
records one after another.  A record is checked and written by itself, so the formulas of the
whole are those of the first export and then those of the second.

## Main definitions

* `Text.Closed` — a text whose last word has ended.
* `RendersInTurn` — a text is rendered as two others are, one after the other.

## Main results

* `Text.runs_append` — words of a text and of what follows it.
* `Text.closed_of_runs_append` — a word that stands by itself has a blank in front of it.
* `Record.readAll_append` — the records of two exports in one.
* `tex_rendersInTurn` — the formulas of two exports in one.
-/

namespace TensorContraction

open Spelling Text

/-! ### Words of a text and of what follows -/

namespace Text

/-- A text without any word. -/
def Blank (s : String) : Prop := ∀ c ∈ s.toList, isBlank c = true

instance (s : String) : Decidable (Blank s) := decidable_of_iff _ List.all_eq_true

/-- A text that is empty or ends with a blank. -/
def Closed (s : String) : Prop := ∀ c ∈ s.toList.getLast?, isBlank c = true

variable {s t w : String}

theorem Blank.closed (h : Blank s) : Closed s := by
  intro c hc
  exact h c (List.mem_of_getLast? hc)

theorem Closed.append (hs : Closed s) (ht : Closed t) : Closed (s ++ t) := by
  intro c hc
  rw [String.toList_append, List.getLast?_append] at hc
  cases hlast : t.toList.getLast? with
  | none => exact hs c (by simpa [hlast] using hc)
  | some d =>
    obtain rfl : d = c := by simpa [hlast] using hc
    exact ht d hlast

theorem runs_of_blank (h : Blank s) : runs s = [] := by
  have hpieces (cs : List Char) (hcs : ∀ c ∈ cs, isBlank c = true) :
      (cs.splitOnP isBlank).filter (fun run => run ≠ []) = [] := by
    induction cs with
    | nil => rfl
    | cons c cs ih =>
      obtain ⟨hc, hcs⟩ := List.forall_mem_cons.mp hcs
      rw [List.splitOnP_cons_eq_if_modifyHead, if_pos hc, List.filter_cons_of_neg (by simp),
        ih hcs]
  rw [runs, hpieces _ h, List.map_nil]

/-- **Where a blank stands no word goes on.** -/
theorem runs_append (hs : Closed s) : runs (s ++ t) = runs s ++ runs t := by
  rcases List.eq_nil_or_concat' s.toList with hnil | ⟨cs, m, hcs⟩
  · obtain rfl : s = "" := String.toList_inj.mp hnil
    rw [String.empty_append, runs_of_blank (s := "") (by simp [Blank]), List.nil_append]
  · -- the blank at the end cuts both the text alone and what is put behind it
    have hm : isBlank m = true := hs m (by simp [hcs])
    have hcut (ys : List Char) : (s.toList ++ ys).splitOnP isBlank =
        cs.splitOnP isBlank ++ ys.splitOnP isBlank := by
      rw [hcs, List.append_assoc, List.singleton_append, List.splitOnP_append_cons _ _ hm]
    have halone := hcut []
    rw [List.append_nil] at halone
    rw [runs, runs, runs, String.toList_append, hcut, halone]
    simp

/-- A run of characters without a blank is one word. -/
theorem runs_of_run (hw : w.toList ≠ [] ∧ ∀ c ∈ w.toList, isBlank c = false) : runs w = [w] := by
  rw [runs, List.splitOnP_eq_singleton hw.2, List.filter_cons_of_pos (by simpa using hw.1),
    List.filter_nil, List.map_singleton, String.ofList_toList]

/-- A text ends in a run of characters without a blank, which may be empty. -/
theorem exists_closed_append (s : String) :
    ∃ front run, s = front ++ run ∧ Closed front ∧ ∀ c ∈ run.toList, isBlank c = false := by
  suffices hlist : ∀ cs : List Char, ∃ front run : List Char, cs = front ++ run ∧
      (∀ c ∈ front.getLast?, isBlank c = true) ∧ ∀ c ∈ run, isBlank c = false by
    obtain ⟨front, run, hcs, hfront, hrun⟩ := hlist s.toList
    refine ⟨String.ofList front, String.ofList run, ?_, by simpa [Closed], by simpa⟩
    rw [← String.toList_inj, hcs]
    simp
  intro cs
  induction cs using List.reverseRecOn with
  | nil => exact ⟨[], [], rfl, by simp, by simp⟩
  | append_singleton cs c ih =>
    obtain ⟨front, run, rfl, hfront, hrun⟩ := ih
    cases hc : isBlank c with
    | true => exact ⟨front ++ run ++ [c], [], by simp, by simpa, by simp⟩
    | false =>
      refine ⟨front, run ++ [c], List.append_assoc _ _ _, hfront, ?_⟩
      exact List.forall_mem_append.mpr ⟨hrun, by simpa⟩

/-- **A word that stands by itself has a blank in front of it.** -/
theorem closed_of_runs_append {body : List String}
    (hw : w.toList ≠ [] ∧ ∀ c ∈ w.toList, isBlank c = false) (h : runs (s ++ w) = body ++ [w]) :
    Closed s ∧ runs s = body := by
  obtain ⟨front, run, rfl, hfront, hrun⟩ := exists_closed_append s
  have hlast : runs (run ++ w) = [run ++ w] := by
    refine runs_of_run ⟨?_, ?_⟩
    · simp [hw.1]
    · rw [String.toList_append]
      exact List.forall_mem_append.mpr ⟨hrun, hw.2⟩
  rw [String.append_assoc, runs_append hfront, hlast] at h
  obtain ⟨hbody, hword⟩ := List.append_inj' h rfl
  obtain rfl : run = "" := by
    have hchars := congrArg String.toList (List.cons.inj hword).1
    rw [String.toList_append, List.append_left_eq_self] at hchars
    exact String.toList_inj.mp hchars
  rw [String.append_empty]
  exact ⟨hfront, hbody⟩

end Text

/-! ### Records -/

theorem Spelling.Several.append {α : Type} {P : Phrase α} {us vs : List String} {as bs : List α}
    (has : Several P us as) (hbs : Several P vs bs) : Several P (us ++ vs) (as ++ bs) := by
  induction has with
  | nil => exact hbs
  | cons head tail ih =>
    rw [List.append_assoc, List.cons_append]
    exact .cons head ih

namespace Record

variable {a b s s' : String} {rs rs' : List Record}

theorem finish_isRun : "[END]".toList ≠ [] ∧ ∀ c ∈ "[END]".toList, isBlank c = false :=
  not_isBlank_of_mem_runs (show "[END]" ∈ runs "[END]" by decide +kernel)

/-- What stands in front of the final word is closed and spells the records. -/
theorem closed_of_readAll (h : readAll (a ++ "[END]") = .ok rs) :
    Closed a ∧ Several RecordWords (runs a) rs := by
  rw [readAll_eq_ok_iff_scan, Reading.scan_eq_iff (Nat.le_refl _), map_text_words] at h
  obtain ⟨body, hbody, hwords⟩ := h
  obtain ⟨hclosed, rfl⟩ := closed_of_runs_append finish_isRun hwords
  exact ⟨hclosed, hbody⟩

/-- **The records of two exports in one** are those of the first and then those of the second. -/
theorem readAll_append (ha : readAll (a ++ "[END]") = .ok rs)
    (hb : readAll (b ++ "[END]") = .ok rs') (hs : Blank s) (hs' : Blank s') :
    readAll (a ++ s ++ b ++ s' ++ "[END]") = .ok (rs ++ rs') := by
  obtain ⟨hclosed, hwords⟩ := closed_of_readAll ha
  obtain ⟨hclosed', hwords'⟩ := closed_of_readAll hb
  have hfront := hclosed.append hs.closed
  rw [readAll_eq_ok_iff_scan, Reading.scan_eq_iff (Nat.le_refl _), map_text_words]
  refine ⟨runs a ++ runs b, hwords.append hwords', ?_⟩
  rw [runs_append ((hfront.append hclosed').append hs'.closed),
    runs_append (hfront.append hclosed'), runs_append hfront, runs_append hclosed,
    runs_of_blank hs, runs_of_blank hs', runs_of_run finish_isRun, List.append_nil,
    List.append_nil]

end Record

/-! ### Formulas -/

theorem accepted_append (rs rs' : List Record) :
    accepted (rs ++ rs') = accepted rs ++ accepted rs' :=
  List.filterMap_append

theorem Tex.document_append (cs cs' : List Contraction) :
    document (cs ++ cs') = document cs ++ document cs' := by
  rw [document, document, document, List.map_append, String.join_append]

theorem rendering_tex_append (rs rs' : List Record) :
    rendering .tex (rs ++ rs') = rendering .tex rs ++ rendering .tex rs' := by
  rw [rendering, rendering, rendering, accepted_append, Tex.document_append]

section Render

variable {text output : String} {records : List Record} {t : Target}

theorem exists_render_stop_iff (h : Record.readAll text = .ok records) :
    (∃ output, (render ⟨t, false⟩ text).outcome = .ok output) ↔ ∀ r ∈ records, r.RendersAs t := by
  constructor
  · rintro ⟨output, hout⟩
    exact rendersAs_of_render h hout
  · intro hall
    exact ⟨_, by rw [render_stop_eq_goOn h hall, render_outcome_of_goOn h t]⟩

/-- What is written, if anything is, does not depend on what is done about failures. -/
theorem eq_rendering_of_render {keepGoing : Bool} (h : Record.readAll text = .ok records)
    (hout : (render ⟨t, keepGoing⟩ text).outcome = .ok output) : output = rendering t records := by
  have hgoOn := render_outcome_of_goOn h t
  cases keepGoing with
  | true => exact Except.ok.inj (hout.symm.trans hgoOn)
  | false =>
    rw [render_stop_eq_goOn h (rendersAs_of_render h hout)] at hout
    exact Except.ok.inj (hout.symm.trans hgoOn)

end Render

/-- A text is rendered as formulas as two others are, one after the other. -/
structure RendersInTurn (first second whole : String) : Prop where
  /-- Stopping at failures succeeds on the whole exactly if it does on both parts. -/
  stops_iff : (∃ output, (render ⟨.tex, false⟩ whole).outcome = .ok output) ↔
    (∃ output, (render ⟨.tex, false⟩ first).outcome = .ok output) ∧
      ∃ output, (render ⟨.tex, false⟩ second).outcome = .ok output
  /-- Where both parts are written, so is the whole, as one and then the other. -/
  append : ∀ keepGoing output output',
    (render ⟨.tex, keepGoing⟩ first).outcome = .ok output →
    (render ⟨.tex, keepGoing⟩ second).outcome = .ok output' →
    (render ⟨.tex, keepGoing⟩ whole).outcome = .ok (output ++ output')

/-- **Records are rendered as formulas one by one**: two exports in one give the records, and the
formulas, of the first and then those of the second. -/
theorem tex_rendersInTurn {a b s s' : String} {rs rs' : List Record}
    (ha : Record.readAll (a ++ "[END]") = .ok rs) (hb : Record.readAll (b ++ "[END]") = .ok rs')
    (hs : Blank s) (hs' : Blank s') :
    Record.readAll (a ++ s ++ b ++ s' ++ "[END]") = .ok (rs ++ rs') ∧
      RendersInTurn (a ++ "[END]") (b ++ "[END]") (a ++ s ++ b ++ s' ++ "[END]") := by
  have hwhole := Record.readAll_append ha hb hs hs'
  have hstops : (∃ output,
      (render ⟨.tex, false⟩ (a ++ s ++ b ++ s' ++ "[END]")).outcome = .ok output) ↔
      (∃ output, (render ⟨.tex, false⟩ (a ++ "[END]")).outcome = .ok output) ∧
        ∃ output, (render ⟨.tex, false⟩ (b ++ "[END]")).outcome = .ok output := by
    rw [exists_render_stop_iff hwhole, exists_render_stop_iff ha, exists_render_stop_iff hb,
      List.forall_mem_append]
  refine ⟨hwhole, hstops, fun keepGoing output output' hout hout' => ?_⟩
  -- the whole is written either way, and then its text is that of its records
  obtain ⟨whole, hrender⟩ : ∃ whole,
      (render ⟨.tex, keepGoing⟩ (a ++ s ++ b ++ s' ++ "[END]")).outcome = .ok whole := by
    cases keepGoing with
    | true => exact ⟨_, render_outcome_of_goOn hwhole .tex⟩
    | false => exact hstops.mpr ⟨⟨output, hout⟩, output', hout'⟩
  rw [hrender, eq_rendering_of_render hwhole hrender, eq_rendering_of_render ha hout,
    eq_rendering_of_render hb hout', rendering_tex_append]

/-- A record that counts an arc it does not have. -/
def miscountedText : String :=
  "[CONTR] # 2 [RESULT] R F (,) [FACTOR] 1 1 1 [#VERTICES] 0 0 [SVERTEX] [#ARCS] 0 1 "
    ++ "[VERTICES] [ARCS] [XARCS] [CONTR_STRING] [RESULT_STRING]\n"

/-- A record that can be written and one that cannot, apart and together. -/
theorem scalarText_tex_rendersInTurn :
    Record.readAll (scalarText ++ "[END]") = .ok [scalarRecord] ∧
      Record.readAll (miscountedText ++ "[END]") = .ok [earlyRecord] ∧
      Blank "\u2003" ∧ Blank "\r\n" ∧
      Record.readAll (scalarText ++ "\u2003" ++ miscountedText ++ "\r\n" ++ "[END]") =
        .ok [scalarRecord, earlyRecord] ∧
      RendersInTurn (scalarText ++ "[END]") (miscountedText ++ "[END]")
        (scalarText ++ "\u2003" ++ miscountedText ++ "\r\n" ++ "[END]") := by
  have hscalar : Record.readAll (scalarText ++ "[END]") = .ok [scalarRecord] := by
    unfold Record.readAll Reading.ofText Text.words scalarText
    simp only [String.toList_append]
    iterate 3 rw [String.toList_ofList]
    decide +kernel
  have hmiscounted : Record.readAll (miscountedText ++ "[END]") = .ok [earlyRecord] := by
    unfold Record.readAll Reading.ofText Text.words miscountedText
    simp only [String.toList_append]
    iterate 3 rw [String.toList_ofList]
    decide +kernel
  have hspace : Blank "\u2003" := by decide +kernel
  have hbreak : Blank "\r\n" := by decide +kernel
  exact ⟨hscalar, hmiscounted, hspace, hbreak,
    tex_rendersInTurn hscalar hmiscounted hspace hbreak⟩

end TensorContraction
