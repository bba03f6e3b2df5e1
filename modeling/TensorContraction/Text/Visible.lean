import TensorContraction.Text.Mark
import TensorContraction.Text.Unassigned

/-!
# Making a text visible

A text shown for inspection stands between quotation marks, and every character that could
not be told apart or would not show by itself is written as an escape: quotation marks,
backslashes, marks, code points without a character or for private use, controls,
characters that only affect the format of others, fillers, and every blank but the ordinary
one.  An apostrophe stands for itself, as it cannot be taken for the end.
-/

namespace TensorContraction.Text

/-- The ranges of assigned code points that show nothing: controls, format characters,
separators other than the blank, fillers, and what is left to private use.  Ascending, each
with both ends. -/
def unseenRanges : List (Nat × Nat) :=
  [(0x0, 0x1F), (0x7F, 0xA0), (0xAD, 0xAD), (0x600, 0x605), (0x61C, 0x61C), (0x6DD, 0x6DD),
    (0x70F, 0x70F), (0x890, 0x891), (0x8E2, 0x8E2), (0x115F, 0x1160), (0x1680, 0x1680),
    (0x180E, 0x180E), (0x2000, 0x200F), (0x2028, 0x202F), (0x205F, 0x2064), (0x2066, 0x206F),
    (0x3000, 0x3000), (0x3164, 0x3164), (0xE000, 0xF8FF), (0xFEFF, 0xFEFF), (0xFFA0, 0xFFA0),
    (0xFFF9, 0xFFFB), (0x110BD, 0x110BD), (0x110CD, 0x110CD), (0x13430, 0x1343F),
    (0x1BCA0, 0x1BCA3), (0x1D173, 0x1D17A), (0xE0001, 0xE0001), (0xE0020, 0xE007F),
    (0xF0000, 0xFFFFD), (0x100000, 0x10FFFD)]

/-- Whether a character does not show by itself. -/
def isInvisible (c : Char) : Bool := within unseenRanges c || isMark c || isUnassigned c

/-- The characters shown for a character. -/
def visible (c : Char) : List Char :=
  match c with
  | '\x00' => ['\\', '0']
  | '\t' => ['\\', 't']
  | '\n' => ['\\', 'n']
  | '\r' => ['\\', 'r']
  | '"' => ['\\', '"']
  | '\\' => ['\\', '\\']
  | c =>
    if isInvisible c then
      ['\\', 'u', '\x7b'] ++ Nat.toDigits 16 c.toNat ++ ['\x7d']
    else [c]

/-- A text between quotation marks, with escapes for what does not show. -/
def shown (text : String) : String := "\"" ++ String.ofList (text.toList.flatMap visible) ++ "\""

end TensorContraction.Text
