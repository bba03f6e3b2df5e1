import TensorContraction.Text.Ranges

/-!
# Blank characters

The characters that separate words are those of the Unicode property
`White_Space`: twenty-five code points, most of them outside ASCII.  The property
is fixed by the standard and has no rule behind it, so it is a table here.
-/

namespace TensorContraction.Text

/-- The ranges of code points with the property `White_Space`, ascending, each with
both ends. -/
def blankRanges : List (Nat × Nat) :=
  [(0x9, 0xD), (0x20, 0x20), (0x85, 0x85), (0xA0, 0xA0), (0x1680, 0x1680), (0x2000, 0x200A),
    (0x2028, 0x2029), (0x202F, 0x202F), (0x205F, 0x205F), (0x3000, 0x3000)]

/-- Whether a character separates words. -/
def isBlank (c : Char) : Bool := within blankRanges c

end TensorContraction.Text
