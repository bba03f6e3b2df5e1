import TensorContraction.Record.Basic
import TensorContraction.Record.Columns
import TensorContraction.Record.Fault
import TensorContraction.Record.SignatureText
import TensorContraction.Text.Numeral
import TensorContraction.Text.Word

/-!
# The grammar of an export

An export is a sequence of records closed by a final word.  A record is a fixed
sequence of sections; only some of them, up to the word that opens the next, are of
variable length.  Reading goes through the words once and stops at the first that
does not fit.

## Main definitions

* `Reader` — a function that takes its value off the front of a list of words.
* `Reader.record` — the grammar of one record.
* `Reading.ofText` — the records of an export, up to its first fault.
* `Record.readAll` — all records of an export, or its first fault.
-/

namespace TensorContraction

open Text

/-! ### Where reading stops -/

/-- Why reading stops.  Where there is no word to blame, as when a text ends too early, the
last line is, which is not known before all of the text has been seen. -/
inductive Halt where
  /-- The last line is blamed. -/
  | atLast (fault : Fault)
  /-- The word on a line is wrong. -/
  | atLine (line : Nat) (fault : Fault)
  deriving DecidableEq, Repr, Inhabited

namespace Halt

/-- Blames the first of some words, if there is any. -/
def atFirst (ws : List Word) (fault : Fault) : Halt :=
  match ws with
  | [] => atLast fault
  | w :: _ => atLine w.line fault

/-- The error to report for a text whose last line is known. -/
def toError (lastLine : Nat) : Halt → ReadError
  | atLast fault => ⟨lastLine, fault⟩
  | atLine line fault => ⟨line, fault⟩

end Halt

/-! ### Single words -/

namespace Text.Word

/-- Whether the word opens a section. -/
def isTag (w : Word) : Bool := w.chars.head? == some '['

/-- Whether the word holds signatures. -/
def isSignatures (w : Word) : Bool := w.chars.head? == some '('

/-- Refuses the word. -/
def refuse {α : Type} (w : Word) (fault : Fault) : Except Halt α := .error (.atLine w.line fault)

/-- Refuses the word because it is of the wrong kind. -/
def unexpected {α : Type} (w : Word) (expected : Expected) : Except Halt α :=
  w.refuse (.unexpected expected w.text)

/-- The word as an integer. -/
def integer (w : Word) : Except Halt Int := match integer? w.chars with
  | some n => .ok n
  | none => w.refuse (.notInteger w.text)

/-- The word as a decimal. -/
def decimal (w : Word) : Except Halt Rat := match decimal? w.chars with
  | some q => .ok q
  | none => w.refuse (.notDecimal w.text)

/-- The word as a flag. -/
def flag (w : Word) : Except Halt Bool :=
  if w.text = "T" then .ok true
  else if w.text = "F" then .ok false
  else w.refuse (.notFlag w.text)

/-- The word as a sequence of signatures. -/
def signatures (w : Word) : Except Halt (List Signature) := match SignatureText.readAll w.chars with
  | .ok ss => .ok ss
  | .error (.unknownSpace c) => w.refuse (.unknownSpace c)
  | .error .malformed => w.refuse (.malformedSignatures w.text)

end Text.Word

/-! ### The grammar -/

/-- A function that takes its value off the front of a list of words. -/
abbrev Reader := StateT (List Word) (Except Halt)

namespace Reader

/-- The next word, which there has to be. -/
def next (expected : Expected) : Reader Word
  | [] => .error (.atLast (.endOfInput expected))
  | w :: ws => .ok (w, ws)

/-- The words up to the first that fails a test. -/
def takeWhile (test : Word → Bool) : Reader (List Word) := fun ws =>
  .ok (ws.takeWhile test, ws.dropWhile test)

/-- The values of things that have been taken already. -/
def each {α β : Type} (value : α → Except Halt β) (xs : List α) : Reader (List β) := fun ws =>
  (xs.mapM value).map fun ys => (ys, ws)

/-- The fields up to the next section. -/
def fields : Reader (List Word) := takeWhile (!·.isTag)

/-- At most so many items, for as long as a field follows. -/
def itemsUpTo {α : Type} (item : Reader α) : Nat → Reader (List α)
  | n + 1, w :: ws =>
    if w.isTag then .ok ([], w :: ws)
    else (do return (← item) :: (← itemsUpTo item n)) (w :: ws)
  | _, ws => .ok ([], ws)

/-- The items up to the next section.  Each takes at least one word, so there are no
more items than words. -/
def items {α : Type} (item : Reader α) : Reader (List α) := fun ws =>
  itemsUpTo item ws.length ws

/-- The word that opens a section. -/
def tag (t : Tag) : Reader Unit := do
  let w ← next (.tag t)
  if w.text = t.text then return else w.unexpected (.tag t)

/-- An integer. -/
def integer : Reader Int := do
  let w ← next .integer
  if w.isTag then w.unexpected .integer else w.integer

/-- A decimal. -/
def decimal : Reader Rat := do (← next .decimal).decimal

/-- One or more words of signatures. -/
def signatures : Reader (List Signature) := do
  let first ← next .signatures
  if first.isSignatures then
    let more ← takeWhile (·.isSignatures)
    return (← each Word.signatures (first :: more)).flatten
  else first.unexpected .signatures

/-- An operator: its name, whether it is transposed, and its signatures. -/
def operator : Reader Operator := do
  let name ← next .operatorName
  if name.isTag || name.isSignatures then name.unexpected .operatorName
  else
    let transposed ← (← next .flag).flag
    return ⟨name.text, transposed, ← signatures⟩

/-- An arc: its two ends and the spaces along it. -/
def arc : Reader (Arc Int) := return ⟨← integer, ← integer, ← signatures⟩

/-- The number of a record: a number sign and an integer, with or without a blank
between them. -/
def number : Reader Int := do
  let w ← next .numberSign
  match w.chars with
  | '#' :: [] => integer
  | '#' :: digits => Word.integer ⟨String.ofList digits, w.line⟩
  | _ => w.unexpected .numberSign

/-- The rows of the table in a section.  Fields that fill no table are blamed where the first of
them stands. -/
def table {α : Type} (t : Tag) (width : Nat) (row : Vector Word width → Except Halt α) :
    Reader (List α) := do
  tag t
  let fields ← fields
  match Columns.rows? width fields with
  | some rows => each row rows
  | none => throw (.atFirst fields (.ragged t width fields.length))

/-- The fields of an index on a vertex. -/
def vertexRow (fields : Vector Word 6) : Except Halt VertexRow :=
  return ⟨← fields[0].integer, ← fields[1].integer, ← fields[2].integer, ← fields[3].flag,
    ← fields[4].integer, ← fields[5].integer⟩

/-- The fields of an index of the result. -/
def resultRow (fields : Vector Word 5) : Except Halt ResultRow :=
  return ⟨← fields[0].integer, ← fields[1].integer, ← fields[2].integer, ← fields[3].integer,
    ← fields[4].integer⟩

/-- One record. -/
def record : Reader Record := do
  tag .contraction
  let id ← number
  tag .result
  let result ← operator
  tag .factor
  let factor : Factor := ⟨← decimal, ← decimal, ← decimal⟩
  tag .vertexCounts
  let vertexCount ← integer
  let operatorCount ← integer
  tag .superVertices
  let superVertices ← each Word.integer (← fields)
  tag .arcCounts
  let arcCount ← integer
  let externalArcCount ← integer
  tag .vertices
  let vertices ← items operator
  tag .arcs
  let arcs ← items arc
  tag .externalArcs
  let externalArcs ← items arc
  let vertexRows ← table .vertexTable 6 vertexRow
  let resultRows ← table .resultTable 5 resultRow
  return { id, result, factor, vertexCount, operatorCount, superVertices, arcCount,
           externalArcCount, vertices, arcs, externalArcs, vertexRows, resultRows }

end Reader

/-! ### Whole exports -/

/-- The records of an export that could be read, and the error that kept the rest
from it. -/
structure Reading where
  /-- The records in front of the first fault. -/
  records : List Record
  /-- The first fault, if there is one. -/
  error? : Option ReadError
  deriving Repr

namespace Reading

/-- At most so many records up to the end of an export, and what goes wrong. -/
def scan : Nat → List Word → List Record × Option Halt
  | n + 1, w :: ws =>
    if w.text = Tag.finish.text then
      match ws with
      | [] => ([], none)
      | extra :: _ => ([], some (.atLine extra.line (.unexpected .nothing extra.text)))
    else if w.text = Tag.contraction.text then
      match Reader.record (w :: ws) with
      | .ok (r, rest) =>
        let (rs, halt?) := scan n rest
        (r :: rs, halt?)
      | .error halt => ([], some halt)
    else ([], some (.atLine w.line (.unexpected .recordOrFinish w.text)))
  | _, _ => ([], some (.atLast (.endOfInput .recordOrFinish)))

/-- The records of a sequence of words.  Each takes at least one word, so there are no
more records than words. -/
def ofWords (ws : List Word) : Reading :=
  let (records, halt?) := scan ws.length ws
  ⟨records, halt?.map (·.toError (lastLine ws))⟩

/-- The records of a text. -/
def ofText (text : String) : Reading := ofWords (words text)

/-- The records, if there is no fault. -/
def toExcept (r : Reading) : Except ReadError (List Record) :=
  match r.error? with
  | none => .ok r.records
  | some e => .error e

end Reading

/-- Reads all records of an export. -/
def Record.readAll (text : String) : Except ReadError (List Record) := (Reading.ofText text).toExcept

end TensorContraction
