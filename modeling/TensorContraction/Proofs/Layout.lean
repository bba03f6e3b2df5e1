import Mathlib.Data.List.FinRange
import TensorContraction.Proofs.Check
import TensorContraction.Record.Columns
import TensorContraction.Record.SignatureText
import TensorContraction.Text.Word

/-!
# The layout of an export

Before anything is read, a text is split into words, the fields of a table are put into rows,
and a word of signatures is taken apart.  Each of these only undoes the way things are laid
out: blanks between words, columns one after another, brackets around signatures.

## Main definitions

* `Text.runs` — the runs of characters between blanks.

## Main results

* `Text.map_text_words` — words are the runs between blanks.
* `Text.runs_spaced` — every sequence of words is that of a text.
* `SignatureText.readAll_eq_ok_iff` — reading signatures inverts writing them.
* `Columns.rows?_eq_some_iff` — rows are found in the columns that write them.
-/

namespace TensorContraction

/-! ### Words -/

namespace Text

/-- The runs of characters between blanks. -/
def runs (text : String) : List String :=
  ((text.toList.splitOnP isBlank).filter fun run => run ≠ []).map String.ofList

theorem map_text_close (letters : List Char) (line : Nat) :
    (Word.close letters line).map (·.text) =
      ([letters.reverse].filter fun run => run ≠ []).map String.ofList := by
  cases letters with
  | nil => rfl
  | cons c cs => simp [Word.close]

theorem modifyHead_nil_append (lists : List (List Char)) :
    lists.modifyHead (([] : List Char).reverse ++ ·) = lists := by
  cases lists <;> rfl

/-- A word that has been begun is the front of the first run that is left. -/
theorem map_text_scan (line : Nat) (letters cs : List Char) :
    (Word.scan line letters cs).map (·.text) =
      (((cs.splitOnP isBlank).modifyHead (letters.reverse ++ ·)).filter fun run => run ≠ []).map
        String.ofList := by
  induction cs generalizing line letters with
  | nil =>
    rw [Word.scan, map_text_close, List.splitOnP_nil, List.modifyHead_cons, List.append_nil]
  | cons c cs ih =>
    rw [Word.scan, List.splitOnP_cons_eq_if_modifyHead]
    split
    · rw [List.map_append, map_text_close, ih, modifyHead_nil_append, List.modifyHead_cons,
        List.append_nil, ← List.map_append, ← List.filter_append, List.singleton_append]
    · rw [ih, List.modifyHead_modifyHead]
      simp [Function.comp_def]

/-- **Words are the runs between blanks.** -/
theorem map_text_words (text : String) : (words text).map (·.text) = runs text := by
  rw [words, map_text_scan, modifyHead_nil_append, runs]

theorem forall_mem_of_mem_splitOnP {cs run : List Char} (h : run ∈ cs.splitOnP isBlank) :
    ∀ c ∈ run, isBlank c = false := by
  induction cs generalizing run with
  | nil =>
    obtain rfl : run = [] := by simpa using h
    simp
  | cons c cs ih =>
    rw [List.splitOnP_cons_eq_if_modifyHead] at h
    split at h
    · rcases List.mem_cons.mp h with rfl | h
      · simp
      · exact ih h
    · next hc =>
      cases hsplit : cs.splitOnP isBlank with
      | nil => exact absurd hsplit (List.splitOnP_ne_nil _ _)
      | cons first others =>
        rw [hsplit] at h ih
        rcases List.mem_cons.mp h with rfl | h
        · exact List.forall_mem_cons.mpr ⟨by simpa using hc, ih List.mem_cons_self⟩
        · exact ih (List.mem_cons_of_mem _ h)

/-- A run is not empty and has no blank in it. -/
theorem not_isBlank_of_mem_runs {text w : String} (h : w ∈ runs text) :
    w.toList ≠ [] ∧ ∀ c ∈ w.toList, isBlank c = false := by
  obtain ⟨run, hrun, rfl⟩ := List.mem_map.mp h
  rw [String.toList_ofList]
  obtain ⟨hrun, hne⟩ := List.mem_filter.mp hrun
  exact ⟨by simpa using hne, forall_mem_of_mem_splitOnP hrun⟩

/-- Words with a blank behind each. -/
def spaced (ws : List String) : String := String.ofList (ws.flatMap fun w => w.toList ++ [' '])

theorem runs_spaced {ws : List String}
    (h : ∀ w ∈ ws, w.toList ≠ [] ∧ ∀ c ∈ w.toList, isBlank c = false) :
    runs (spaced ws) = ws := by
  induction ws with
  | nil => simp [runs, spaced]
  | cons w ws ih =>
    rcases List.forall_mem_cons.mp h with ⟨⟨hne, hblank⟩, hws⟩
    have hrest := ih hws
    have hspace : isBlank ' ' = true := by decide
    simp only [runs, spaced, String.toList_ofList] at hrest ⊢
    rw [List.flatMap_cons, List.append_assoc, List.singleton_append,
      List.splitOnP_append_cons_of_forall_mem hblank _ hspace,
      List.filter_cons_of_pos (by simpa using hne), List.map_cons, String.ofList_toList, hrest]

end Text

/-! ### Signatures -/

namespace SignatureText

/-- The text of a signature without its closing bracket. -/
def opened (s : Signature) : List Char :=
  '(' :: s.creators.map Space.letter ++ ',' :: s.annihilators.map Space.letter

theorem write_eq (s : Signature) : write s = opened s ++ [')'] := rfl

theorem spaces_eq_ok_iff {letters : List Char} {ss : List Space} :
    spaces letters = .ok ss ↔ letters = ss.map Space.letter := by
  rw [spaces, Check.mapM_eq_ok_iff, ← Check.forall₂_eq_iff]
  constructor
  · intro h
    refine h.imp fun c s hs => Space.ofLetter?_eq_some_iff.mp ?_
    cases hc : Space.ofLetter? c with
    | none => simp [hc] at hs
    | some s' => simpa [hc] using hs
  · intro h
    refine h.imp fun c s hs => ?_
    rw [Space.ofLetter?_eq_some_iff.mpr hs]

theorem ne_of_mem_letters {ss : List Space} {c : Char} (h : c ∈ ss.map Space.letter) :
    c ≠ ',' ∧ c ≠ ')' := by
  obtain ⟨s, -, rfl⟩ := List.mem_map.mp h
  cases s <;> decide

theorem read_eq_ok_iff {run : List Char} {s : Signature} : read run = .ok s ↔ run = opened s := by
  constructor
  · intro h
    unfold read at h
    split at h
    · next body =>
      split at h
      · next upper lower hcut =>
        obtain ⟨m, hm, -, rfl⟩ := Text.cut?_eq_some_iff.mp hcut
        obtain rfl : m = ',' := by simpa using hm
        simp only [Check.bind_eq_ok_iff, Check.pure_eq_ok_iff, spaces_eq_ok_iff] at h
        obtain ⟨creators, rfl, annihilators, rfl, rfl⟩ := h
        rfl
      · simp at h
    · simp at h
  · rintro rfl
    have hcut : Text.cut? (· == ',') (s.creators.map Space.letter ++
        ',' :: s.annihilators.map Space.letter) =
          some (s.creators.map Space.letter, s.annihilators.map Space.letter) := by
      refine Text.cut?_eq_some_iff.mpr ⟨',', rfl, fun c hc => ?_, rfl⟩
      simpa using (ne_of_mem_letters hc).1
    rw [opened, List.cons_append, read, hcut]
    simp only [Check.bind_eq_ok_iff, Check.pure_eq_ok_iff, spaces_eq_ok_iff]
    exact ⟨_, rfl, _, rfl, rfl⟩

/-- The pieces of a text with their marks put back. -/
theorem flatMap_pieces {m : Char} {cs rest : List Char} {runs : List (List Char)}
    (h : Text.pieces (· == m) cs = (runs, rest)) :
    cs = (runs.flatMap fun run => run ++ [m]) ++ rest := by
  induction cs generalizing runs rest with
  | nil =>
    obtain ⟨rfl, rfl⟩ : [] = runs ∧ [] = rest := by simpa [Text.pieces] using h
    rfl
  | cons c cs ih =>
    rcases hpieces : Text.pieces (· == m) cs with ⟨runs', rest'⟩
    have hcs := ih hpieces
    rw [Text.pieces, hpieces] at h
    by_cases hc : (c == m) = true
    · obtain ⟨rfl, rfl⟩ : [] :: runs' = runs ∧ rest' = rest := by simpa [hc] using h
      obtain rfl : c = m := by simpa using hc
      rw [hcs]
      simp
    · cases runs' with
      | nil =>
        obtain ⟨rfl, rfl⟩ : [] = runs ∧ c :: rest' = rest := by simpa [hc] using h
        rw [hcs]
        rfl
      | cons run runs' =>
        obtain ⟨rfl, rfl⟩ : (c :: run) :: runs' = runs ∧ rest' = rest := by simpa [hc] using h
        rw [hcs]
        simp

/-- A piece ends at the first mark. -/
theorem pieces_append {m : Char} {run cs rest : List Char} {runs : List (List Char)}
    (hrun : ∀ c ∈ run, c ≠ m) (h : Text.pieces (· == m) cs = (runs, rest)) :
    Text.pieces (· == m) (run ++ m :: cs) = (run :: runs, rest) := by
  induction run with
  | nil => simp [Text.pieces, h]
  | cons c run ih =>
    obtain ⟨hc, hrun⟩ := List.forall_mem_cons.mp hrun
    rw [List.cons_append, Text.pieces, ih hrun]
    simp [hc]

theorem pieces_writeAll (ss : List Signature) :
    Text.pieces (· == ')') (writeAll ss) = (ss.map opened, []) := by
  induction ss with
  | nil => rfl
  | cons s ss ih =>
    have hopened : ∀ c ∈ opened s, c ≠ ')' := by
      intro c hc
      simp only [opened, List.mem_append, List.mem_cons] at hc
      rcases hc with (rfl | hc) | rfl | hc
      · decide
      · exact (ne_of_mem_letters hc).2
      · decide
      · exact (ne_of_mem_letters hc).2
    have happend : writeAll (s :: ss) = opened s ++ ')' :: writeAll ss := by
      rw [writeAll, List.flatMap_cons, write_eq, List.append_assoc]
      rfl
    rw [happend, pieces_append hopened ih, List.map_cons]

/-- **Reading signatures inverts writing them.** -/
theorem readAll_eq_ok_iff {cs : List Char} {ss : List Signature} :
    readAll cs = .ok ss ↔ cs = writeAll ss := by
  have hruns (runs : List (List Char)) (ss : List Signature) :
      runs.mapM read = .ok ss ↔ runs = ss.map opened := by
    simp only [Check.mapM_eq_ok_iff, read_eq_ok_iff, Check.forall₂_eq_iff]
  unfold readAll
  rcases hpieces : Text.pieces (· == ')') cs with ⟨runs, rest⟩
  simp only [Check.bind_eq_ok_iff, hruns]
  constructor
  · intro h
    obtain ⟨ss', rfl, h⟩ := h
    split at h
    · next hrest =>
      obtain rfl := Check.pure_eq_ok_iff.mp h
      rw [flatMap_pieces hpieces, List.isEmpty_iff.mp hrest, List.append_nil, List.flatMap_map]
      rfl
    · simp at h
  · rintro rfl
    obtain ⟨rfl, rfl⟩ : ss.map opened = runs ∧ [] = rest := by
      simpa using (pieces_writeAll ss).symm.trans hpieces
    exact ⟨ss, rfl, rfl⟩

end SignatureText

/-! ### Tables -/

namespace Columns

variable {α : Type} {width : Nat} {fs : List α} {rows rows' : List (Vector α width)}

theorem length_fields (rows : List (Vector α width)) :
    (fields rows).length = width * rows.length := by
  simp [fields, List.length_flatMap]

theorem fields_inj (hlen : rows.length = rows'.length) (h : fields rows = fields rows') :
    rows = rows' := by
  have hcolumns : ((List.finRange width).map fun column => rows.map (·[column])) =
      (List.finRange width).map fun column => rows'.map (·[column]) := by
    refine List.eq_iff_flatten_eq.mpr ⟨h, ?_⟩
    simp [hlen]
  refine List.ext_getElem hlen fun i hi hi' => Vector.ext fun j hj => ?_
  have hcolumn : rows.map (·[j]) = rows'.map (·[j]) :=
    List.map_inj_left.mp hcolumns ⟨j, hj⟩ (List.mem_finRange _)
  have hentry := List.getElem_of_eq hcolumn (by simpa using hi)
  simpa using hentry

/-- The rows of a table are written by the fields they were found in. -/
theorem fields_of_rows? (h : rows? width fs = some rows) :
    fields rows = fs ∧ rows.length = fs.length / width := by
  unfold rows? at h
  obtain ⟨hdvd, h⟩ := Option.ite_none_right_eq_some.mp h
  obtain rfl := Option.some.inj h
  refine ⟨?_, List.length_ofFn⟩
  have hlen : width * (fs.length / width) = fs.length :=
    Nat.mul_div_cancel' (Nat.dvd_of_mod_eq_zero hdvd)
  calc
    _ = (List.ofFn fun column : Fin width => List.ofFn fun row : Fin (fs.length / width) =>
          fs.get ⟨column.val * (fs.length / width) + row.val, by
            have := position_lt row.isLt column.isLt
            omega⟩).flatten := by
      rw [fields, List.flatMap_def, ← List.ofFn_eq_map]
      simp [List.map_ofFn, Function.comp_def, Nat.add_comm]
    _ = List.ofFn fun i : Fin (width * (fs.length / width)) =>
          fs.get ⟨i.val, Nat.lt_of_lt_of_eq i.isLt hlen⟩ := by
      rw [List.ofFn_mul]
    _ = fs := List.ext_getElem (by simp [hlen]) fun i hi hi' => by simp

theorem exists_rows?_iff : (∃ rows, rows? width fs = some rows) ↔ width ∣ fs.length := by
  rw [Nat.dvd_iff_mod_eq_zero]
  constructor
  · intro h
    obtain ⟨rows, h⟩ := h
    exact (Option.ite_none_right_eq_some.mp h).1
  · intro hdvd
    exact ⟨_, if_pos hdvd⟩

theorem rows?_eq_none_iff : rows? width fs = none ↔ ¬ width ∣ fs.length := by
  rw [← exists_rows?_iff, Option.eq_none_iff_forall_ne_some, not_exists]

theorem dvd_length_fields (rows : List (Vector α width)) : width ∣ (fields rows).length :=
  ⟨rows.length, length_fields rows⟩

/-- **Rows are found in the columns that write them.** -/
theorem rows?_eq_some_iff (hwidth : 0 < width) : rows? width fs = some rows ↔ fields rows = fs := by
  constructor
  · intro h
    exact (fields_of_rows? h).1
  · rintro rfl
    obtain ⟨rows', hrows'⟩ := exists_rows?_iff.mpr (dvd_length_fields rows)
    obtain ⟨hfields, hlen⟩ := fields_of_rows? hrows'
    rw [length_fields, Nat.mul_div_cancel_left _ hwidth] at hlen
    rw [hrows', fields_inj hlen hfields]

end Columns
end TensorContraction
