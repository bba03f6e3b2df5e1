import TensorContraction.Index

/-!
# Tensors

A tensor is a named operator with one group of indices for each of its vertices.
Most operators have one vertex; one that spans several keeps their groups apart,
because which slot an index comes from decides what may be exchanged with it.

## Main definitions

* `Group` — the indices of one vertex, creators and annihilators.
* `Tensor`, `Tensor.creators`, `Tensor.annihilators`, `Tensor.isScalar`.
-/

namespace TensorContraction

/-- The indices attached to one vertex. -/
abbrev Group := Ladder Index

/-- A named operator and the indices of its vertices. -/
structure Tensor where
  /-- The name the operator is written with. -/
  name : String
  /-- One group for each vertex, in order. -/
  groups : List Group
  /-- Whether the operator is the transpose of the one it is named after. -/
  transposed : Bool
  deriving DecidableEq, Repr, Inhabited

namespace Tensor

/-- All creators, vertex by vertex. -/
def creators (t : Tensor) : List Index := t.groups.flatMap (·.creators)

/-- All annihilators, vertex by vertex. -/
def annihilators (t : Tensor) : List Index := t.groups.flatMap (·.annihilators)

/-- Whether the tensor has no index at all. -/
def isScalar (t : Tensor) : Bool := t.groups.all (·.isEmpty)

end Tensor
end TensorContraction
