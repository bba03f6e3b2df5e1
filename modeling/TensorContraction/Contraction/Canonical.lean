import TensorContraction.Ascending
import TensorContraction.Contraction.Arrangement
import TensorContraction.Contraction.Basic
import TensorContraction.Contraction.Violation
import TensorContraction.Record.Basic

/-!
# The contraction of a record

A record becomes a contraction when all its numbers make sense together.  Numbers
are checked and moved to count from zero, vertices of one super-vertex are joined
into one tensor, and the indices of each vertex are arranged by its signature.

Creators stand in the order of their signature and annihilators in the opposite
order, so that the two indices of one particle stand at the same place of both strings.

The first broken rule decides what is reported, so the order of the checks is part of
what a rejection means.

## Main definitions

* `Vertex`, `SuperVertex` — a vertex after its checks, and those that form a tensor.
* `Group.ofIndices` — the indices of one vertex, arranged.
* `Contraction.ofRecord` — the contraction of a record.
-/

namespace TensorContraction

/-! ### Numbers -/

namespace Record

/-- A number that counts from one, as one that counts from zero. -/
def fromOne (field : Field) (value : Int) : Except Violation Nat :=
  if 0 < value then .ok (value - 1).toNat else .error (.notPositive field value)

/-- Checks a declared number. -/
def checkCount (quantity : Quantity) (declared : Int) (actual : Nat) : Except Violation Unit :=
  if declared = actual then .ok () else .error (.countMismatch quantity declared actual)

/-- The space of a number that counts from one. -/
def spaceOf (value : Int) : Except Violation Space := do
  match Space.ofNumber? (← fromOne .indexSpace value) with
  | some s => .ok s
  | none => .error (.unknownSpace value)

/-- The role of a number that counts from one. -/
def roleOf (value : Int) : Except Violation Role := do
  match Role.ofNumber? (← fromOne .indexType value) with
  | some r => .ok r
  | none => .error (.unknownRole value)

/-- The arc with its ends counted from zero. -/
def arcOf (a : Arc Int) : Except Violation (Arc Nat) :=
  return ⟨← fromOne .arcVertex a.first, ← fromOne .arcVertex a.second, a.spaces⟩

/-- The index of a row.  The arc of the row has to make sense but is not kept. -/
def vertexIndex (row : VertexRow) : Except Violation Index := do
  let _ ← fromOne .arcIndex row.arc
  return ⟨← fromOne .indexId row.id, ← spaceOf row.space, ← fromOne .vertexId row.vertex,
    ← roleOf row.role⟩

/-- The index of a row of the result at a position. -/
def externalIndex (position : Nat) (row : ResultRow) : Except Violation Index := do
  if row.vertex ≠ row.duplicate then
    .error (.resultVertexMismatch (position + 1) row.vertex row.duplicate)
  else
    return ⟨← fromOne .indexId row.id, ← spaceOf row.space, ← fromOne .vertexId row.vertex,
      ← roleOf row.role⟩

/-- Checks that signatures have a place for each of so many indices. -/
def checkPlaces (quantity : Quantity) (signatures : List Signature) (actual : Nat) :
    Except Violation Unit :=
  checkCount quantity (signatures.flatMap Ladder.entries).length actual

end Record

/-! ### Vertices -/

/-- A vertex and what its record says about it. -/
structure Vertex where
  /-- The position of the vertex, which its indices name. -/
  position : Nat
  /-- The super-vertex it belongs to. -/
  superVertex : Nat
  /-- The name of its operator. -/
  name : String
  /-- Whether its operator is transposed. -/
  transposed : Bool
  /-- The signature of its indices, exchanged if the operator is transposed. -/
  signature : Signature
  deriving DecidableEq, Repr, Inhabited

/-- The vertex of an operator, which has to have exactly one signature. -/
def Vertex.ofOperator (position superVertex : Nat) (o : Operator) : Except Violation Vertex :=
  match o.slots with
  | [slot] => .ok ⟨position, superVertex, o.name, o.transposed, slot.seen o.transposed⟩
  | slots => .error (.slotCount (position + 1) slots.length)

/-- The vertices that form one tensor; there is at least one. -/
structure SuperVertex where
  /-- The vertex of least position, which names the tensor. -/
  first : Vertex
  /-- The other vertices, in order. -/
  others : List Vertex
  deriving DecidableEq, Repr, Inhabited

namespace SuperVertex

/-- All vertices of a super-vertex, in order. -/
def members (s : SuperVertex) : List Vertex := s.first :: s.others

/-- The super-vertices of some vertices, by ascending number. -/
def ofVertices (vs : List Vertex) : List SuperVertex :=
  (Ascending.ofList (vs.map (·.superVertex))).filterMap fun n =>
    match vs.filter (·.superVertex == n) with
    | [] => none
    | first :: others => some ⟨first, others⟩

end SuperVertex

/-! ### Groups and tensors -/

namespace Group

/-- What it means for a vertex that its indices of a role cannot be arranged. -/
def violation (position : Nat) (role : Role) : ArrangeError → Violation
  | .lengthMismatch indices spaces => .signatureMismatch (position + 1) role spaces indices
  | .missingSpace place space => .noIndexOfSpace (position + 1) role space (place + 1)

/-- The indices of a role that a pool holds for a vertex, arranged by its signature. -/
def string (position : Nat) (signature : Signature) (pool : List Index) (role : Role) :
    Except Violation (List Index) :=
  (arrange (pool.filter fun x => x.vertex == position && x.role == role)
    (signature.on role)).mapError (violation position role)

/-- The indices that a pool holds for a vertex. -/
def ofIndices (position : Nat) (signature : Signature) (pool : List Index) :
    Except Violation Group :=
  return ⟨← string position signature pool .creator,
    (← string position signature pool .annihilator).reverse⟩

end Group

/-- The tensor of a super-vertex, whose vertices have to agree on the operator. -/
def SuperVertex.tensor (pool : List Index) (s : SuperVertex) : Except Violation Tensor := do
  match s.others.find? (·.name != s.first.name) with
  | some other => .error (.mixedOperators s.first.name other.name)
  | none =>
    let groups ← s.members.mapM fun v => Group.ofIndices v.position v.signature pool
    return ⟨s.first.name, groups, s.first.transposed⟩

/-! ### Contractions -/

namespace Contraction

/-- The contraction of a record, or the first rule the record breaks. -/
def build (r : Record) : Except Violation Contraction := do
  let id ← Record.fromOne .contractionId r.id
  Record.checkCount .vertex r.vertexCount r.vertices.length
  Record.checkCount .superVertexAssociation r.vertexCount r.superVertices.length
  Record.checkCount .arc r.arcCount r.arcs.length
  Record.checkCount .externalArc r.externalArcCount r.externalArcs.length
  let association ← r.superVertices.mapM (Record.fromOne .superVertexId)
  let arcs ← r.arcs.mapM Record.arcOf
  let externalArcs ← r.externalArcs.mapM Record.arcOf
  let vertexIndices ← r.vertexRows.mapM Record.vertexIndex
  let externalIndices ← r.resultRows.zipIdx.mapM fun (row, i) => Record.externalIndex i row
  let vertices ← (association.zip r.vertices).zipIdx.mapM fun ((s, o), i) =>
    Vertex.ofOperator i s o
  Record.checkPlaces .vertexIndex (vertices.map (·.signature)) vertexIndices.length
  let supers := SuperVertex.ofVertices vertices
  Record.checkCount .operator r.operatorCount supers.length
  let tensors ← supers.mapM (SuperVertex.tensor vertexIndices)
  let slots := r.result.slots.map (·.seen r.result.transposed)
  Record.checkPlaces .resultIndex slots externalIndices.length
  let groups ← slots.zipIdx.mapM fun (s, i) => Group.ofIndices i s externalIndices
  return { id, factor := r.factor.value,
           result := ⟨r.result.name, groups, r.result.transposed⟩,
           tensors, superVertices := association, arcs, externalArcs, vertexIndices,
           externalIndices }

/-- The contraction of a record, or why there is none. -/
def ofRecord (r : Record) : Except Rejection Contraction :=
  (build r).mapError fun v => ⟨r.id, v⟩

end Contraction
end TensorContraction
