/-!
# Tables written by columns

An export writes the indices of a record as a table, column after column: all
vertices first, then all roles, and so on.  What a reader wants are the rows.

## Main definitions

* `Columns.rows?` — the rows of a table.
* `Columns.fields` — the fields of a table, column after column.
-/

namespace TensorContraction.Columns

variable {α : Type} {width : Nat}

/-- The position of a field is within the table. -/
theorem position_lt {height row column : Nat} (hr : row < height) (hc : column < width) :
    row + column * height < width * height :=
  calc
    row + column * height < (column + 1) * height := by rw [Nat.succ_mul]; omega
    _ ≤ width * height := Nat.mul_le_mul_right _ hc

/-- The rows of the table that a list of fields writes column after column.  There
are none if the fields do not fill the columns evenly. -/
def rows? (width : Nat) (fields : List α) : Option (List (Vector α width)) :=
  if fields.length % width = 0 then
    some (List.ofFn fun row : Fin (fields.length / width) =>
      Vector.ofFn fun column : Fin width =>
        fields.get ⟨row.val + column.val * (fields.length / width),
          Nat.lt_of_lt_of_le (position_lt row.isLt column.isLt) (Nat.mul_div_le ..)⟩)
  else none

/-- The fields of a table, column after column. -/
def fields (rows : List (Vector α width)) : List α :=
  (List.finRange width).flatMap fun column => rows.map (·[column])

end TensorContraction.Columns
