import TensorContraction.Ladder

/-!
# Indices and their order

An index has a number, a space, the vertex it was declared on and the string it
stands in.  Two orders matter.  Whole indices are ordered by number first.  Where
an external index has to be recognised on an operator the vertex says nothing, so
what is compared is the `Key` of an index, the index without its vertex, and keys
are ordered by space first.

Both orders are the lexicographic order of a *rank*, a list of numbers that
determines the value.

## Main definitions

* `Index`, `Index.rank` — indices, ordered by number, space, vertex, role.
* `Key`, `Key.rank`, `Index.key` — their keys, ordered by space, number, role.
-/

namespace TensorContraction

/-! ### Indices -/

/-- One index of a tensor. -/
structure Index where
  /-- The number that tells indices of one space apart, counted from zero. -/
  id : Nat
  /-- The space summed over or left open. -/
  space : Space
  /-- The vertex the index was declared on; for an external index, the slot of the
  result. -/
  vertex : Nat
  /-- The string the index stands in. -/
  role : Role
  deriving DecidableEq, Repr, Inhabited

namespace Index

/-- The numbers by which indices are ordered, the most significant first. -/
def rank (x : Index) : List Nat := [x.id, x.space.number, x.vertex, x.role.number]

instance : LT Index := ⟨fun x y => x.rank < y.rank⟩

instance : DecidableLT Index := fun x y => inferInstanceAs (Decidable (x.rank < y.rank))

theorem lt_iff {x y : Index} : x < y ↔ x.rank < y.rank := Iff.rfl

theorem rank_inj {x y : Index} : x.rank = y.rank ↔ x = y := by
  constructor
  · cases x
    cases y
    simp only [rank, List.cons.injEq, Space.number_inj, Role.number_inj, and_true, mk.injEq]
    exact fun h => h
  · rintro rfl
    rfl

end Index

/-! ### Keys -/

/-- An index without its vertex.  An external index lives on a slot of the result
and its counterpart on a vertex of an operator; the two have one key. -/
structure Key where
  /-- The space of the index. -/
  space : Space
  /-- The number of the index. -/
  id : Nat
  /-- The string of the index. -/
  role : Role
  deriving DecidableEq, Repr, Inhabited

namespace Key

/-- The numbers by which keys are ordered, the most significant first. -/
def rank (k : Key) : List Nat := [k.space.number, k.id, k.role.number]

instance : LT Key := ⟨fun k l => k.rank < l.rank⟩

instance : DecidableLT Key := fun k l => inferInstanceAs (Decidable (k.rank < l.rank))

theorem lt_iff {k l : Key} : k < l ↔ k.rank < l.rank := Iff.rfl

theorem rank_inj {k l : Key} : k.rank = l.rank ↔ k = l := by
  constructor
  · cases k
    cases l
    simp only [rank, List.cons.injEq, Space.number_inj, Role.number_inj, and_true, mk.injEq]
    exact fun h => h
  · rintro rfl
    rfl

end Key

/-- The key of an index. -/
def Index.key (x : Index) : Key := ⟨x.space, x.id, x.role⟩

end TensorContraction
