import TensorContraction.Tensor

/-!
# Origins of external indices

Two external indices may be exchanged only if they come from different slots of the
product.  The slot an index comes from is the first one that carries an index of the
same key, tensor by tensor and slot by slot.
-/

namespace TensorContraction

/-- A slot of a tensor of the product. -/
structure Origin where
  /-- The position of the tensor. -/
  tensor : Nat
  /-- The position of the slot in the tensor. -/
  slot : Nat
  deriving DecidableEq, Repr, Inhabited

namespace Origin

/-- The keys on the slots of some tensors, each with its slot, in order. -/
def table (tensors : List Tensor) : List (Key × Origin) :=
  tensors.zipIdx.flatMap fun (t, i) =>
    t.groups.zipIdx.flatMap fun (g, j) => g.entries.map fun x => (x.key, ⟨i, j⟩)

/-- The first slot that carries an index of the same key. -/
def of? (tensors : List Tensor) (x : Index) : Option Origin := (table tensors).lookup x.key

end Origin
end TensorContraction
