import TensorContraction.Ladder
import TensorContraction.Text.Cut

/-!
# The text of signatures

A signature is written as two runs of space letters in brackets, as in `(HH,P)`, and
several signatures may follow one another without a blank.  Each signature has one
text, so reading is the exact inverse of writing.

## Main definitions

* `SignatureText.write`, `SignatureText.writeAll` — the text of signatures.
* `SignatureText.readAll` — the signatures of a text.
-/

namespace TensorContraction.SignatureText

/-! ### Writing -/

/-- The text of one signature. -/
def write (s : Signature) : List Char :=
  '(' :: s.creators.map Space.letter ++ ',' :: s.annihilators.map Space.letter ++ [')']

/-- The text of a sequence of signatures. -/
def writeAll (ss : List Signature) : List Char := ss.flatMap write

/-! ### Reading -/

/-- Why a text is no sequence of signatures. -/
inductive Fault where
  /-- A letter where a space is due. -/
  | unknownSpace (letter : Char)
  /-- A bracket or a comma is missing. -/
  | malformed
  deriving DecidableEq, Repr, Inhabited

/-- The spaces of a run of letters. -/
def spaces (letters : List Char) : Except Fault (List Space) :=
  letters.mapM fun c => match Space.ofLetter? c with
    | some s => .ok s
    | none => .error (.unknownSpace c)

/-- Reads one signature, given the characters before its closing bracket. -/
def read : List Char → Except Fault Signature
  | '(' :: body => match Text.cut? (· == ',') body with
    | some (upper, lower) => return ⟨← spaces upper, ← spaces lower⟩
    | none => .error .malformed
  | _ => .error .malformed

/-- Reads a sequence of signatures.  All characters have to belong to one. -/
def readAll (cs : List Char) : Except Fault (List Signature) := do
  let (runs, rest) := Text.pieces (· == ')') cs
  let signatures ← runs.mapM read
  if rest.isEmpty then return signatures else .error .malformed

end TensorContraction.SignatureText
