import TensorContraction.Contraction.Canonical
import TensorContraction.Export.Journal
import TensorContraction.Record.Grammar
import TensorContraction.Term.Sequant
import TensorContraction.Term.Structured
import TensorContraction.Term.Tex

/-!
# Rendering an export

An export is rendered in stages, each of which deals with all contractions before the
next begins: reading, checking, finding antisymmetrizers where the target shows them,
and writing.  A fault in the text ends everything.  A contraction that breaks a rule
does so too, unless the caller asks for such contractions to be passed over.

## Main definitions

* `Options`, `RenderError` — what to do, and what can go wrong.
* `render` — the text an export is rendered as.
-/

namespace TensorContraction

/-- What to render an export as, and how. -/
structure Options where
  /-- The target. -/
  target : Target
  /-- Whether contractions that break a rule are passed over. -/
  keepGoing : Bool
  deriving DecidableEq, Repr

instance : Inhabited Options := ⟨⟨.tex, false⟩⟩

/-- Why an export cannot be rendered. -/
inductive RenderError where
  /-- The text is not an export. -/
  | unreadable (e : ReadError)
  /-- A contraction breaks a rule. -/
  | rejected (r : Rejection)
  deriving DecidableEq, Repr

namespace Reading

/-- The events of reading: one for each record that could be read, and one for an
export without a fault. -/
def events (r : Reading) : List Event :=
  (r.records.map fun record =>
      Event.recordRead record.id record.vertices.length record.arcs.length)
    ++ match r.error? with
      | none => [.exportRead r.records.length]
      | some _ => []

/-- Reading with its events. -/
def journal (r : Reading) : Journal RenderError (List Record) :=
  ⟨r.events, r.toExcept.mapError .unreadable⟩

end Reading

/-- The contractions of some records. -/
def contractions (keepGoing : Bool) (records : List Record) :
    Journal Rejection (List Contraction) :=
  Journal.each keepGoing Contraction.ofRecord
    (fun r c => .accepted r.id c.tensors.length c.externalIndices.length) records

/-- The terms of some contractions. -/
def terms (keepGoing : Bool) (cs : List Contraction) : Journal Rejection (List Term) :=
  Journal.each keepGoing Term.ofContraction
    (fun c t => .symmetrized c.number t.symmetrization.groups.creators.length
      t.symmetrization.groups.annihilators.length t.symmetrization.implied
      t.symmetrization.required) cs

/-- The text of some contractions. -/
def write (o : Options) (cs : List Contraction) : Journal Rejection String :=
  match o.target with
  | .tex => return Tex.document cs
  | .sequant => return Sequant.document (← terms o.keepGoing cs)
  | .json => return Structured.document (← terms o.keepGoing cs)

/-- Renders the text of an export. -/
def render (o : Options) (text : String) : Journal RenderError String := do
  let records ← (Reading.ofText text).journal
  let cs ← (contractions o.keepGoing records).mapError .rejected
  let output ← (write o cs).mapError .rejected
  Journal.note (.rendered records.length o.target)
  return output

end TensorContraction
