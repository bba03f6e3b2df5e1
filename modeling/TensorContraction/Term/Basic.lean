import TensorContraction.Antisymmetry.Symmetrization

/-!
# Terms

A term is a contraction together with the antisymmetrizers of its result: all that is
needed to write it as part of a sum.
-/

namespace TensorContraction

/-- A contraction and the antisymmetrizers of its result. -/
structure Term where
  /-- The contraction. -/
  contraction : Contraction
  /-- The antisymmetrizers it needs. -/
  symmetrization : Symmetrization
  deriving DecidableEq, Repr, Inhabited

/-- The term of a contraction, or why it has none. -/
def Term.ofContraction (c : Contraction) : Except Rejection Term :=
  (Symmetrization.ofContraction c).map fun s => ⟨c, s⟩

end TensorContraction
