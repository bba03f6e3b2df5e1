import TensorContraction.Proofs.Layout

/-!
# Regrouping a table

A table that is written column after column is read by rows.  The fields of a row stand as far
apart as there are rows, so their positions have to be worked out, and nothing about the fields
themselves would show that one of them was taken from the wrong place, or that there was none to
take.  Here the rows are read from positions that may lie beyond the fields.  None of them does,
and what is read is the table that the columns write.

## Main definitions

* `Columns.Stop` — why reading stops.
* `Columns.readRow`, `Columns.readRows` — one row, and all rows, read position by position.

## Main results

* `Columns.getElem?_of_rows?` — where the fields of a row stand.
* `Columns.readRows_eq` — reading position by position finds the same rows, and never leaves the
  fields.
* `Columns.regrouping_outcome` — which fields have rows, and that rows and columns are inverse to
  each other.
-/

namespace TensorContraction.Columns

variable {α : Type} {width : Nat} {fs : List α} {rows : List (Vector α width)}

/-! ### Rows read position by position -/

/-- Why the rows of a table cannot be read. -/
inductive Stop where
  /-- The fields do not fill the columns evenly. -/
  | uneven
  /-- There is no field at a position. -/
  | beyond (position : Nat)
  deriving DecidableEq, Repr

/-- The field at a position, where there has to be one. -/
def fieldAt (fs : List α) (position : Nat) : Except Stop α :=
  match fs[position]? with
  | some field => .ok field
  | none => .error (.beyond position)

/-- A row of a table with so many rows. -/
def readRow (width height : Nat) (fs : List α) (row : Nat) : Except Stop (List α) :=
  (List.range width).mapM fun column => fieldAt fs (row + column * height)

/-- The rows of a table, one after another. -/
def readRows (width : Nat) (fs : List α) : Except Stop (List (List α)) :=
  if fs.length % width = 0 then
    (List.range (fs.length / width)).mapM (readRow width (fs.length / width) fs)
  else .error .uneven

theorem fieldAt_eq_ok_iff {position : Nat} {field : α} :
    fieldAt fs position = .ok field ↔ fs[position]? = some field := by
  unfold fieldAt
  cases fs[position]? <;> simp

/-! ### The rows that are found -/

/-- **Where the fields of a row stand.** -/
theorem getElem?_of_rows? (h : rows? width fs = some rows) {i j : Nat} (hi : i < rows.length)
    (hj : j < width) : fs[i + j * rows.length]? = some rows[i][j] := by
  unfold rows? at h
  obtain ⟨-, h⟩ := Option.ite_none_right_eq_some.mp h
  obtain rfl := Option.some.inj h
  simp

theorem readRow_of_rows? (h : rows? width fs = some rows) {i : Nat} (hi : i < rows.length) :
    readRow width rows.length fs i = .ok rows[i].toList := by
  rw [readRow, Check.mapM_eq_ok_iff, List.forall₂_iff_get]
  refine ⟨by simp, fun j hj hj' => ?_⟩
  rw [fieldAt_eq_ok_iff]
  simpa using getElem?_of_rows? h hi (by simpa using hj)

theorem readRows_of_rows? (h : rows? width fs = some rows) :
    readRows width fs = .ok (rows.map (·.toList)) := by
  have heven : fs.length % width = 0 :=
    Nat.mod_eq_zero_of_dvd (exists_rows?_iff.mp ⟨rows, h⟩)
  -- a column has as many fields as there are rows, so both ways go in the same strides
  rw [readRows, if_pos heven, ← (fields_of_rows? h).2, Check.mapM_eq_ok_iff, List.forall₂_iff_get]
  refine ⟨by simp, fun i hi hi' => ?_⟩
  simpa using readRow_of_rows? h (by simpa using hi)

/-- **Reading position by position finds the same rows.**  It stops only for fields that do not
fill the columns, and never because there is no field at a position. -/
theorem readRows_eq (width : Nat) (fs : List α) :
    readRows width fs =
      match rows? width fs with
      | some rows => .ok (rows.map (·.toList))
      | none => .error .uneven := by
  cases h : rows? width fs with
  | some rows => exact readRows_of_rows? h
  | none =>
    have huneven : ¬ fs.length % width = 0 :=
      mt Nat.dvd_of_mod_eq_zero (rows?_eq_none_iff.mp h)
    rw [readRows, if_neg huneven]

/-! ### Both ways -/

/-- **Regrouping a table undoes writing it by columns, and the other way round.**  Fields have no
rows exactly if they do not fill the columns evenly.  Otherwise they have as many rows as a column
has fields, every position that is read is that of a field, and the columns of the rows are the
fields again.  Every table is found in its columns. -/
theorem regrouping_outcome (hwidth : 0 < width) :
    (∀ fs : List α,
      (rows? width fs = none ↔ ¬ width ∣ fs.length) ∧
      (width ∣ fs.length → ∃ rows, rows? width fs = some rows ∧
        rows.length = fs.length / width ∧
        (∀ (i j : Nat) (hi : i < rows.length) (hj : j < width),
          fs[i + j * rows.length]? = some rows[i][j]) ∧
        fields rows = fs) ∧
      readRows width fs =
        match rows? width fs with
        | some rows => .ok (rows.map (·.toList))
        | none => .error .uneven) ∧
    ∀ rows : List (Vector α width), rows? width (fields rows) = some rows := by
  refine ⟨fun fs => ⟨rows?_eq_none_iff, fun hdvd => ?_, readRows_eq width fs⟩, fun rows => ?_⟩
  · obtain ⟨rows, hrows⟩ := exists_rows?_iff.mpr hdvd
    obtain ⟨hfields, hlen⟩ := fields_of_rows? hrows
    exact ⟨rows, hrows, hlen, fun i j hi hj => getElem?_of_rows? hrows hi hj, hfields⟩
  · exact (rows?_eq_some_iff hwidth).mpr rfl

/-- Six fields in three columns are two rows, four fields do not fill the columns. -/
theorem regrouping_outcome_two_rows :
    fields [#v[1, 3, 5], #v[2, 4, 6]] = [1, 2, 3, 4, 5, 6] ∧
      rows? 3 [1, 2, 3, 4, 5, 6] = some [#v[1, 3, 5], #v[2, 4, 6]] ∧
      readRows 3 [1, 2, 3, 4, 5, 6] = .ok [[1, 3, 5], [2, 4, 6]] ∧
      rows? 3 [1, 2, 3, 4] = none ∧ readRows 3 [1, 2, 3, 4] = .error .uneven := by
  obtain ⟨hfields, hrows⟩ := regrouping_outcome (α := Nat) (by decide : 0 < 3)
  have hwritten : fields [#v[1, 3, 5], #v[2, 4, 6]] = [1, 2, 3, 4, 5, 6] := by decide
  have hfound := hrows [#v[1, 3, 5], #v[2, 4, 6]]
  have hnone : rows? 3 [1, 2, 3, 4] = none := (hfields [1, 2, 3, 4]).1.mpr (by decide)
  rw [hwritten] at hfound
  refine ⟨hwritten, hfound, ?_, hnone, ?_⟩
  · rw [(hfields [1, 2, 3, 4, 5, 6]).2.2, hfound]
    rfl
  · rw [(hfields [1, 2, 3, 4]).2.2, hnone]

end TensorContraction.Columns
