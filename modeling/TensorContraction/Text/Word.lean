import TensorContraction.Text.Blank

/-!
# Words of a text

A text is read as a sequence of words, the maximal runs of characters that are not
blank.  Where the blanks and line breaks fall says nothing except in messages, for
which each word remembers its line.

## Main definitions

* `Word` — a word and its line.
* `words` — the words of a text.
-/

namespace TensorContraction.Text

/-- A run of characters without a blank. -/
structure Word where
  /-- The characters of the word. -/
  text : String
  /-- The line the word stands on, counted from one.  Only a line feed starts a new
  line. -/
  line : Nat
  deriving DecidableEq, Repr, Inhabited

namespace Word

/-- The characters of a word as a list. -/
def chars (w : Word) : List Char := w.text.toList

/-- The word whose characters, last first, are `letters`; no word if there are
none. -/
def close (letters : List Char) (line : Nat) : List Word :=
  if letters.isEmpty then [] else [⟨String.ofList letters.reverse, line⟩]

/-- The words of the characters that follow, `letters` being those, last first, of
the word that has been begun on this line. -/
def scan (line : Nat) (letters : List Char) : List Char → List Word
  | [] => close letters line
  | c :: cs =>
    if isBlank c then close letters line ++ scan (if c = '\n' then line + 1 else line) [] cs
    else scan line (c :: letters) cs

end Word

/-- The words of a text, in order. -/
def words (text : String) : List Word := Word.scan 1 [] text.toList

/-- The line to blame when a text ends too early: the one its last word stands on,
or the first if there is no word. -/
def lastLine (ws : List Word) : Nat := (ws.getLast?.map (·.line)).getD 1

end TensorContraction.Text
