import Mathlib.Data.List.Basic

/-!
# Tables that keep first entries

A table has at most one entry for a key.  Entering something for a key that has an entry changes
nothing.  So a table that is filled step by step has the first entry of each key, the one that
looking through all entries in order would find, and entries for other keys make no difference.

## Main definitions

* `Table`, `Table.enter` — a table, and an entry for a key that has none.
* `Table.fill` — entries one after another.

## Main results

* `Table.fill_apply` — a table that is filled has the first entry of each key.
-/

namespace TensorContraction

/-- A table with at most one entry for a key. -/
abbrev Table (κ β : Type) := κ → Option β

namespace Table

variable {κ β : Type}

/-- The table without entries. -/
def empty : Table κ β := fun _ => none

variable [DecidableEq κ]

/-- A table after an entry has been made for a key, if the key has none. -/
def enter (table : Table κ β) (k : κ) (b : β) : Table κ β := fun l =>
  if l = k then some ((table k).getD b) else table l

/-- A table after entries have been made one after another. -/
def fill (table : Table κ β) (entries : List (κ × β)) : Table κ β :=
  entries.foldl (fun table e => table.enter e.1 e.2) table

theorem enter_apply (table : Table κ β) (k l : κ) (b : β) :
    table.enter k b l = (table l).or (if l = k then some b else none) := by
  unfold enter
  split
  · next h =>
    subst h
    cases table l <;> rfl
  · rw [Option.or_none]

/-- **A table that is filled has the first entry of each key.** -/
theorem fill_apply (table : Table κ β) (entries : List (κ × β)) (k : κ) :
    table.fill entries k = (table k).or (entries.lookup k) := by
  induction entries generalizing table with
  | nil => exact Option.or_none.symm
  | cons e entries ih =>
    have hrest : table.fill (e :: entries) k = (table.enter e.1 e.2).fill entries k := rfl
    rw [hrest, ih, enter_apply, Option.or_assoc, List.lookup_cons]
    by_cases h : k = e.1
    · simp [h]
    · simp [h, beq_false_of_ne h]

end Table
end TensorContraction
