import TensorContraction.Tensor

/-!
# Arranging indices by a signature

A record lists the indices of a vertex in any order, while the signature of the
vertex says which space comes where.  The indices are arranged to fit: each place
takes the first index of its space that is left, so indices of one space keep their
order.

## Main definitions

* `arrange` — the indices in the order of the signature.
* `ArrangeError` — why there is none.
-/

namespace TensorContraction

/-- Why indices do not fit a run of spaces. -/
inductive ArrangeError where
  /-- There are more or fewer indices than spaces. -/
  | lengthMismatch (indices spaces : Nat)
  /-- No index of the space is left for the place, which is counted from zero. -/
  | missingSpace (position : Nat) (space : Space)
  deriving DecidableEq, Repr, Inhabited

/-- The sentence for an error of arranging. -/
def ArrangeError.message : ArrangeError → String
  | lengthMismatch indices spaces =>
    toString indices ++ " indices cannot fill a signature of " ++ toString spaces ++ " spaces"
  | missingSpace position space =>
    "no " ++ space.name ++ "-space index left for signature position " ++ toString position

/-- Fills the places from a position on, taking indices out of a pool. -/
def fillFrom (position : Nat) : List Space → List Index → Except ArrangeError (List Index)
  | [], _ => .ok []
  | s :: ss, pool =>
    match pool.find? (·.space == s) with
    | none => .error (.missingSpace position s)
    | some x => (fillFrom (position + 1) ss (pool.eraseP (·.space == s))).map (x :: ·)

/-- Arranges all indices so that their spaces are the given ones, in order. -/
def arrange (indices : List Index) (spaces : List Space) : Except ArrangeError (List Index) :=
  if indices.length = spaces.length then fillFrom 0 spaces indices
  else .error (.lengthMismatch indices.length spaces.length)

end TensorContraction
