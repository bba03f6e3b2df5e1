import TensorContraction.Tensor

/-!
# Contractions

A contraction adds a factor times a product of tensors to a result, as in
`R^{ab}_{ij} += 1/2 H^{ab}_{cd} T^{cd}_{ij}`.  All its numbers count from zero and
have been checked against one another.
-/

namespace TensorContraction

/-- A checked contraction. -/
structure Contraction where
  /-- The position of the contraction in its numbering. -/
  id : Nat
  /-- What the product is multiplied by. -/
  factor : Rat
  /-- The tensor that is added to, with one group for each of its slots. -/
  result : Tensor
  /-- The tensors of the product, by ascending super-vertex. -/
  tensors : List Tensor
  /-- The super-vertex of each vertex. -/
  superVertices : List Nat
  /-- The lines between vertices. -/
  arcs : List (Arc Nat)
  /-- The lines from vertices to slots of the result. -/
  externalArcs : List (Arc Nat)
  /-- The indices on the vertices, in the order of the record. -/
  vertexIndices : List Index
  /-- The indices of the result, in the order of the record. -/
  externalIndices : List Index
  deriving DecidableEq, Repr, Inhabited

/-- The number of a contraction as its record writes it, counted from one. -/
def Contraction.number (c : Contraction) : Int := c.id + 1

end TensorContraction
