/-!
# Faults of an export

An export that does not follow its grammar is refused with the line of the word
that breaks it.  A `Fault` says what is wrong with the word, and a `ReadError` is a
fault with its line.

## Main definitions

* `Tag` — the bracketed words that open the sections of a record.
* `Expected` — what the grammar asks for at a place.
* `Fault`, `ReadError`, `ReadError.message`.
-/

namespace TensorContraction

/-! ### Sections -/

/-- A section of an export. -/
inductive Tag where
  /-- Opens a record. -/
  | contraction
  /-- Opens the result of a record. -/
  | result
  /-- Opens the factor. -/
  | factor
  /-- Opens the numbers of vertices and of operators. -/
  | vertexCounts
  /-- Opens the super-vertices. -/
  | superVertices
  /-- Opens the numbers of arcs. -/
  | arcCounts
  /-- Opens the vertices. -/
  | vertices
  /-- Opens the arcs. -/
  | arcs
  /-- Opens the external arcs. -/
  | externalArcs
  /-- Opens the indices on the vertices. -/
  | vertexTable
  /-- Opens the indices of the result. -/
  | resultTable
  /-- Ends an export. -/
  | finish
  deriving DecidableEq, Repr, Inhabited

/-- The word that opens a section. -/
def Tag.text : Tag → String
  | contraction => "[CONTR]"
  | result => "[RESULT]"
  | factor => "[FACTOR]"
  | vertexCounts => "[#VERTICES]"
  | superVertices => "[SVERTEX]"
  | arcCounts => "[#ARCS]"
  | vertices => "[VERTICES]"
  | arcs => "[ARCS]"
  | externalArcs => "[XARCS]"
  | vertexTable => "[CONTR_STRING]"
  | resultTable => "[RESULT_STRING]"
  | finish => "[END]"

/-! ### Expectations -/

/-- What the grammar asks for at some place of an export. -/
inductive Expected where
  /-- The opening of a certain section. -/
  | tag (t : Tag)
  /-- Another record or the end. -/
  | recordOrFinish
  /-- No further word. -/
  | nothing
  /-- The mark in front of the number of a record. -/
  | numberSign
  /-- An integer. -/
  | integer
  /-- A decimal. -/
  | decimal
  /-- The name of an operator. -/
  | operatorName
  /-- The flag that tells whether an operator is transposed. -/
  | flag
  /-- The signatures of an operator or an arc. -/
  | signatures
  deriving DecidableEq, Repr, Inhabited

/-- The words for what is expected. -/
def Expected.text : Expected → String
  | tag t => t.text
  | recordOrFinish => Tag.contraction.text ++ " or " ++ Tag.finish.text
  | nothing => "end of input after " ++ Tag.finish.text
  | numberSign => "#"
  | integer => "an integer"
  | decimal => "a decimal number"
  | operatorName => "an operator name"
  | flag => "flag T or F"
  | signatures => "space groups"

/-! ### Faults -/

/-- What is wrong with an export at some place. -/
inductive Fault where
  /-- The export ends too early. -/
  | endOfInput (expected : Expected)
  /-- A word of the wrong kind. -/
  | unexpected (expected : Expected) (found : String)
  /-- A word that is no integer. -/
  | notInteger (found : String)
  /-- A word that is no decimal. -/
  | notDecimal (found : String)
  /-- A word that is no flag. -/
  | notFlag (found : String)
  /-- A letter in a signature that names no space. -/
  | unknownSpace (letter : Char)
  /-- A word that is no sequence of signatures. -/
  | malformedSignatures (found : String)
  /-- A table whose number of fields is not a multiple of its columns. -/
  | ragged (table : Tag) (columns fields : Nat)
  deriving DecidableEq, Repr, Inhabited

namespace Fault

/-- A text between single quotation marks. -/
def quoted (text : String) : String := "'" ++ text ++ "'"

/-- The sentence for a fault. -/
def message : Fault → String
  | endOfInput expected => "expected " ++ expected.text ++ ", found end of input"
  | unexpected expected found => "expected " ++ expected.text ++ ", found " ++ quoted found
  | notInteger found => quoted found ++ " is not a valid integer"
  | notDecimal found => quoted found ++ " is not a valid decimal number"
  | notFlag found => "expected " ++ Expected.flag.text ++ ", found " ++ quoted found
  | unknownSpace letter => "unknown index space " ++ quoted (String.singleton letter)
  | malformedSignatures found => "malformed space groups " ++ quoted found
  | ragged table columns fields =>
    table.text ++ " holds " ++ toString fields ++ " fields, which is not a multiple of "
      ++ toString columns

end Fault

/-- A fault and the line it stands on. -/
structure ReadError where
  /-- The line, counted from one. -/
  line : Nat
  /-- What is wrong there. -/
  fault : Fault
  deriving DecidableEq, Repr, Inhabited

/-- The sentence for an error of reading. -/
def ReadError.message (e : ReadError) : String :=
  "line " ++ toString e.line ++ ": " ++ e.fault.message

end TensorContraction
