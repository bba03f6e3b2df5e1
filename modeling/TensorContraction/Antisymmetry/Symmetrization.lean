import TensorContraction.Antisymmetry.Clique
import TensorContraction.Antisymmetry.Origin
import TensorContraction.Contraction.Basic
import TensorContraction.Contraction.Violation

/-!
# The antisymmetrizers of a result

A result is antisymmetric in the indices of a slot and a role, but the product that
is added to it need not be.  External indices of one space that come from different
slots of the product have to be antisymmetrized.

A record that lists the indices of a slot already implies a symmetrization over all
of them.  How often this exceeds what the groups of exchangeable indices require is
the number a term has to be divided by.

## Main definitions

* `Symmetrization`, `Symmetrization.prefactor` — groups, and both counts.
* `Symmetrization.ofContraction` — what a contraction needs.
-/

namespace TensorContraction

/-- The groups of indices to antisymmetrize, and how often a record implies that. -/
structure Symmetrization where
  /-- The groups of creators and the groups of annihilators. -/
  groups : Ladder (List Index)
  /-- The number of symmetrizations that listing the indices implies. -/
  implied : Nat
  /-- The number of symmetrizations that the groups require. -/
  required : Nat
  deriving DecidableEq, Repr, Inhabited

namespace Symmetrization

/-- The number a term has to be divided by. -/
def prefactor (s : Symmetrization) : Nat := s.implied / s.required

/-! ### Counting -/

/-- The number of orders of so many things. -/
def factorial : Nat → Nat
  | 0 => 1
  | n + 1 => (n + 1) * factorial n

/-- The number of ways to reorder each of some lists. -/
def orders {α : Type} (lists : List (List α)) : Nat :=
  (lists.map fun l => factorial l.length).foldr (· * ·) 1

/-! ### Pairs -/

/-- An index of the result in a string of some role, with its origin. -/
def locate (tensors : List Tensor) (role : Role) (x : Index) :
    Except Violation (Index × Origin) :=
  match Origin.of? tensors x with
  | some o => .ok (x, o)
  | none => .error (.noOrigin x.id x.space role)

/-- The pairs of indices of one space and different origins. -/
def exchangeable : List (Index × Origin) → List (Index × Index)
  | [] => []
  | (x, o) :: rest =>
    (rest.filterMap fun (y, p) => if x.space = y.space ∧ o ≠ p then some (x, y) else none)
      ++ exchangeable rest

/-- Whether indices run over several spaces. -/
def mixed : List Index → Bool
  | [] => false
  | x :: xs => xs.any (·.space != x.space)

/-- The exchangeable pairs among the indices of one slot and role.  More than two
indices of several spaces are not dealt with. -/
def pairs (tensors : List Tensor) (slot : Nat) (role : Role) (xs : List Index) :
    Except Violation (List (Index × Index)) := do
  let located ← xs.mapM (locate tensors role)
  if mixed xs && 2 < xs.length then .error (.mixedSpaces (slot + 1) role xs.length)
  else return exchangeable located

/-- The exchangeable pairs of one slot. -/
def slotPairs (tensors : List Tensor) (slot : Nat) (g : Group) :
    Except Violation (Ladder (Index × Index)) :=
  return ⟨← pairs tensors slot .creator g.creators,
    ← pairs tensors slot .annihilator g.annihilators⟩

/-! ### Groups -/

/-- The rank of the first member of a group. -/
def leadRank (group : List Index) : List Nat := (group.head?.map (·.key.rank)).getD []

/-- The groups that pairs form.  Members are ordered by their keys, and groups by their
first members. -/
def groupsOf (ps : List (Index × Index)) : List (List Index) :=
  Ascending.sortOn leadRank ((Clique.ofPairs ps).map (Ascending.sortOn Index.key))

/-- The antisymmetrizers a contraction needs, or the rule it breaks. -/
def build (c : Contraction) : Except Violation Symmetrization := do
  let found ← c.result.groups.zipIdx.mapM fun (g, slot) => slotPairs c.tensors slot g
  let groups : Ladder (List Index) :=
    ⟨groupsOf (found.flatMap (·.creators)), groupsOf (found.flatMap (·.annihilators))⟩
  let implied := orders (c.result.groups.flatMap fun g => [g.creators, g.annihilators])
  let required := orders groups.entries
  if implied < required ∨ implied % required ≠ 0 then
    .error (.symmetrizationRatio implied required)
  else return ⟨groups, implied, required⟩

/-- The antisymmetrizers a contraction needs, or why there are none. -/
def ofContraction (c : Contraction) : Except Rejection Symmetrization :=
  (build c).mapError fun v => ⟨c.number, v⟩

end Symmetrization
end TensorContraction
