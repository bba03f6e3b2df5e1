import TensorContraction.Term.Basic
import TensorContraction.Text.Json
import TensorContraction.Text.Numeral

/-!
# Terms as structured documents

For other programs a term is written field by field, so that everything about it can
be read back.  Numbers that may exceed a machine word, and factors, are strings.
-/

namespace TensorContraction.Structured

open Text

/-- The name of a role in a document. -/
def roleName : Role → String
  | .creator => "Creator"
  | .annihilator => "Annihilator"

/-- The document of a space. -/
def space (s : Space) : Json := .string s.name

/-- The document of a list. -/
def list {α : Type} (item : α → Json) (xs : List α) : Json := .list (xs.map item)

/-- The document of an index. -/
def index (x : Index) : Json :=
  .object [("id", .number x.id), ("space", space x.space), ("vertex", .number x.vertex),
    ("index_type", .string (roleName x.role))]

/-- The document of a pair of strings. -/
def ladder {α : Type} (item : α → Json) (l : Ladder α) : Json :=
  .object [("creators", list item l.creators), ("annihilators", list item l.annihilators)]

/-- The document of a tensor. -/
def tensor (t : Tensor) : Json :=
  .object [("name", .string t.name), ("vertex_indices", list (ladder index) t.groups),
    ("transposed", .bool t.transposed)]

/-- The document of an arc. -/
def arc (a : Arc Nat) : Json :=
  .object [("first_vertex", .number a.first), ("second_vertex", .number a.second),
    ("spaces", list (ladder space) a.spaces)]

/-- The document of a contraction. -/
def contraction (c : Contraction) : Json :=
  .object [("id", .number c.id), ("factor", .string (ratioText c.factor)),
    ("result", tensor c.result), ("tensors", list tensor c.tensors),
    ("super_vertex_association", list .number c.superVertices), ("arcs", list arc c.arcs),
    ("external_arcs", list arc c.externalArcs),
    ("contraction_indices", list index c.vertexIndices),
    ("external_indices", list index c.externalIndices)]

/-- The document of antisymmetrizers. -/
def symmetrization (s : Symmetrization) : Json :=
  .object [("creator_groups", list (list index) s.groups.creators),
    ("annihilator_groups", list (list index) s.groups.annihilators),
    ("implied", .string (toString s.implied)), ("required", .string (toString s.required))]

/-- The document of a term. -/
def term (t : Term) : Json :=
  .object [("contraction", contraction t.contraction),
    ("symmetrization", symmetrization t.symmetrization)]

/-- The text of some terms. -/
def document (terms : List Term) : String := (list term terms).write

end TensorContraction.Structured
