/-!
# Ranges of code points

Classes of characters that a standard fixes by lists are kept as ranges of code points, in
ascending order.
-/

namespace TensorContraction.Text

/-- Whether a character lies in one of some ranges, each given with both ends. -/
def within (ranges : List (Nat × Nat)) (c : Char) : Bool :=
  ranges.any fun (first, last) => first ≤ c.toNat && c.toNat ≤ last

end TensorContraction.Text
