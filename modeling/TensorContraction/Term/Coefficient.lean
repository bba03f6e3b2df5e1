import TensorContraction.Text.Numeral

/-!
# Coefficients in a formula

A formula shows a factor as a sign, which may be part of another mark, and a magnitude,
which is left out if it is one.
-/

namespace TensorContraction.Coefficient

/-- A factor without its sign. -/
def magnitude (factor : Rat) : Rat := if factor < 0 then -factor else factor

/-- The sign of a factor; zero counts as positive. -/
def sign (factor : Rat) : String := if factor < 0 then "-" else "+"

/-- The word for the magnitude of a factor, if it needs one. -/
def magnitudeWords (factor : Rat) : List String :=
  if magnitude factor = 1 then [] else [Text.ratioText (magnitude factor)]

end TensorContraction.Coefficient
