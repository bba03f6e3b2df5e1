import TensorContraction.Ladder

/-!
# Contraction records

A record describes one contraction the way an export writes it.  All numbers count
from one and none has been checked: a record may well name vertices that do not
exist, which is for canonicalization to find out and to report in the words of the
export.

## Main definitions

* `Operator`, `Factor`, `VertexRow`, `ResultRow` — the parts of a record.
* `Record` — one contraction.
-/

namespace TensorContraction

/-- A named operator and the signature of each of its vertices. -/
structure Operator where
  /-- The name of the operator. -/
  name : String
  /-- Whether the operator is the transpose of the one it is named after. -/
  transposed : Bool
  /-- The signatures as declared, that is, before any transposition. -/
  slots : List Signature
  deriving DecidableEq, Repr, Inhabited

/-- The factor of a contraction, which an export splits into three. -/
structure Factor where
  /-- The factor from outside the contraction. -/
  external : Rat
  /-- The sign of the contraction. -/
  sign : Rat
  /-- The weight of the contraction. -/
  magnitude : Rat
  deriving DecidableEq, Repr, Inhabited

/-- The factor as one number. -/
def Factor.value (f : Factor) : Rat := f.external * f.sign * f.magnitude

/-- An index on a vertex of an operator. -/
structure VertexRow where
  /-- The vertex that carries the index. -/
  vertex : Int
  /-- The number of the role of the index. -/
  role : Int
  /-- The number of the space of the index. -/
  space : Int
  /-- Whether the index is left open. -/
  external : Bool
  /-- The arc the index runs along, or the vertex of the result if the index is
  open. -/
  arc : Int
  /-- The number of the index. -/
  id : Int
  deriving DecidableEq, Repr, Inhabited

/-- An index of the result. -/
structure ResultRow where
  /-- The slot that carries the index. -/
  vertex : Int
  /-- The number of the role of the index. -/
  role : Int
  /-- The number of the space of the index. -/
  space : Int
  /-- The slot once more. -/
  duplicate : Int
  /-- The number of the index. -/
  id : Int
  deriving DecidableEq, Repr, Inhabited

/-- One contraction as an export writes it. -/
structure Record where
  /-- The number of the contraction. -/
  id : Int
  /-- The operator the contraction adds to. -/
  result : Operator
  /-- The factor of the contraction. -/
  factor : Factor
  /-- The declared number of vertices. -/
  vertexCount : Int
  /-- The declared number of operators. -/
  operatorCount : Int
  /-- The super-vertex of each vertex. -/
  superVertices : List Int
  /-- The declared number of arcs. -/
  arcCount : Int
  /-- The declared number of external arcs. -/
  externalArcCount : Int
  /-- The vertices, each with the operator it belongs to. -/
  vertices : List Operator
  /-- The lines between vertices. -/
  arcs : List (Arc Int)
  /-- The lines from vertices to slots of the result. -/
  externalArcs : List (Arc Int)
  /-- The indices on the vertices. -/
  vertexRows : List VertexRow
  /-- The indices of the result. -/
  resultRows : List ResultRow
  deriving DecidableEq, Repr, Inhabited

end TensorContraction
