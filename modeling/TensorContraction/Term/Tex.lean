import TensorContraction.Contraction.Basic
import TensorContraction.Term.Coefficient

/-!
# Contractions in TeX

A contraction is one line such as
`R^{v_2 v_1}_{o_1 o_2} += 1/2 H^{v_4 v_3}_{o_1 o_2} T^{v_2 v_1}_{o_3 o_4}`:
annihilators above, creators below, and every index as a letter for its space with a
number that counts from one.
-/

namespace TensorContraction.Tex

/-- The letter that stands for an index of a space. -/
def letter : Space → String
  | .occupied => "o"
  | .virtual => "v"
  | .active => "a"

/-- The name of an index. -/
def label (x : Index) : String := letter x.space ++ "_" ++ toString (x.id + 1)

/-- The names of some indices. -/
def labels (xs : List Index) : String := "\x7b" ++ String.intercalate " " (xs.map label) ++ "\x7d"

/-- A tensor with its indices. -/
def tensor (t : Tensor) : String :=
  t.name ++ "^" ++ labels t.annihilators ++ "_" ++ labels t.creators

/-- The line of a contraction. -/
def line (c : Contraction) : String :=
  String.intercalate " " (tensor c.result :: (Coefficient.sign c.factor ++ "=")
    :: Coefficient.magnitudeWords c.factor ++ c.tensors.map tensor) ++ "\n"

/-- The lines of some contractions. -/
def document (cs : List Contraction) : String := String.join (cs.map line)

end TensorContraction.Tex
