import TensorContraction.Term.Basic
import TensorContraction.Term.Coefficient

/-!
# Terms for SeQuant

Terms that add to one result stand together, under a line that names the result.
Every index is a letter for its space with a number that counts from one; a tensor
shows its creators before its annihilators, and the antisymmetrizer of the result
shows them the other way round.

The Hamiltonian goes by two names, one for its part that moves a single particle and
one for its part that moves two.

## Main definitions

* `Sequant.tensor`, `Sequant.line` — a tensor and a term.
* `Sequant.gather` — the terms of each result.
* `Sequant.document` — the text of some terms.
-/

namespace TensorContraction.Sequant

/-! ### Tensors -/

/-- The letter that stands for an index of a space. -/
def letter : Space → String
  | .occupied => "i"
  | .virtual => "e"
  | .active => "u"

/-- The name of an index. -/
def label (x : Index) : String := letter x.space ++ toString (x.id + 1)

/-- The names of two strings of indices. -/
def labels (upper lower : List Index) : String :=
  "\x7b" ++ String.intercalate "," (upper.map label) ++ ";"
    ++ String.intercalate "," (lower.map label) ++ "\x7d"

/-- The name a tensor goes by. -/
def name (t : Tensor) : String :=
  if t.name = "H" then
    match t.creators.length with
    | 1 => "f"
    | 2 => "g"
    | _ => t.name
  else t.name

/-- A tensor with its indices. -/
def tensor (t : Tensor) : String := name t ++ labels t.creators t.annihilators

/-! ### Terms -/

/-- The antisymmetrizer of the result, behind the inverse of the prefactor.  A result
without indices has none. -/
def antisymmetrizer (t : Term) : List String :=
  let result := t.contraction.result
  if result.isScalar then []
  else
    let operator := "A" ++ labels result.annihilators result.creators
    if t.symmetrization.prefactor = 1 then [operator]
    else ["1/" ++ toString t.symmetrization.prefactor, operator]

/-- The line of a term. -/
def line (t : Term) : String :=
  "  " ++ String.intercalate " " (Coefficient.sign t.contraction.factor
    :: Coefficient.magnitudeWords t.contraction.factor ++ antisymmetrizer t
    ++ t.contraction.tensors.map tensor) ++ "\n"

/-! ### Results -/

/-- Adds a term to those of its result.  A result that is new comes last. -/
def addTerm (t : Term) : List (Tensor × List Term) → List (Tensor × List Term)
  | [] => [(t.contraction.result, [t])]
  | (result, terms) :: rest =>
    if result = t.contraction.result then (result, terms ++ [t]) :: rest
    else (result, terms) :: addTerm t rest

/-- The terms of each result, results in the order of their first terms. -/
def gather (terms : List Term) : List (Tensor × List Term) :=
  terms.foldl (fun groups t => addTerm t groups) []

/-- A result and its terms. -/
def equation (result : Tensor) (terms : List Term) : String :=
  tensor result ++ " =\n" ++ String.join (terms.map line)

/-- The text of some terms. -/
def document (terms : List Term) : String :=
  String.join ((gather terms).map fun (result, members) => equation result members)

end TensorContraction.Sequant
