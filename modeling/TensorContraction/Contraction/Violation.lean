import TensorContraction.Space

/-!
# Violations

A record that makes no sense as a contraction is rejected for the first rule it
breaks.  Positions are reported as the record counts them, from one.

## Main definitions

* `Field`, `Quantity` — the numbers of a record that rules are about.
* `Violation`, `Violation.message` — a broken rule.
* `Rejection`, `Rejection.message` — a broken rule and the record that breaks it.
-/

namespace TensorContraction

/-! ### What rules are about -/

/-- A number of a record that counts from one. -/
inductive Field where
  /-- The number of the record itself. -/
  | contractionId
  /-- The super-vertex of a vertex. -/
  | superVertexId
  /-- An end of an arc. -/
  | arcVertex
  /-- The arc of an index. -/
  | arcIndex
  /-- The number of an index. -/
  | indexId
  /-- The space of an index. -/
  | indexSpace
  /-- The vertex of an index. -/
  | vertexId
  /-- The role of an index. -/
  | indexType
  deriving DecidableEq, Repr, Inhabited

/-- The words for a field. -/
def Field.text : Field → String
  | contractionId => "contraction id"
  | superVertexId => "super-vertex id"
  | arcVertex => "arc vertex"
  | arcIndex => "arc index"
  | indexId => "index id"
  | indexSpace => "index space"
  | vertexId => "vertex id"
  | indexType => "index type"

/-- Things of which a record declares the number. -/
inductive Quantity where
  /-- The vertices. -/
  | vertex
  /-- The vertices that have a super-vertex. -/
  | superVertexAssociation
  /-- The lines between vertices. -/
  | arc
  /-- The lines to the result. -/
  | externalArc
  /-- The indices on the vertices. -/
  | vertexIndex
  /-- The super-vertices. -/
  | operator
  /-- The indices of the result. -/
  | resultIndex
  deriving DecidableEq, Repr, Inhabited

/-- The words for a quantity. -/
def Quantity.text : Quantity → String
  | vertex => "vertex"
  | superVertexAssociation => "super-vertex association"
  | arc => "arc"
  | externalArc => "external arc"
  | vertexIndex => "contraction index"
  | operator => "operator"
  | resultIndex => "result index"

/-! ### Violations -/

/-- A rule that a record breaks. -/
inductive Violation where
  /-- A number that counts from one is less. -/
  | notPositive (field : Field) (value : Int)
  /-- There is no space of this number. -/
  | unknownSpace (value : Int)
  /-- There is no role of this number. -/
  | unknownRole (value : Int)
  /-- A declared number is wrong. -/
  | countMismatch (quantity : Quantity) (declared : Int) (actual : Nat)
  /-- An index of the result names two slots. -/
  | resultVertexMismatch (position : Nat) (vertex duplicate : Int)
  /-- A vertex declares no signature or several. -/
  | slotCount (vertex slots : Nat)
  /-- The vertices of a super-vertex disagree on their operator. -/
  | mixedOperators (expected found : String)
  /-- A vertex carries more or fewer indices of a role than it declares. -/
  | signatureMismatch (vertex : Nat) (role : Role) (expected actual : Nat)
  /-- A vertex carries too few indices of a space. -/
  | noIndexOfSpace (vertex : Nat) (role : Role) (space : Space) (position : Nat)
  /-- An index of the result is on no tensor. -/
  | noOrigin (id : Nat) (space : Space) (role : Role)
  /-- More than two indices of a slot and a role, not all of one space. -/
  | mixedSpaces (slot : Nat) (role : Role) (count : Nat)
  /-- The symmetrizations a result implies do not cover those it needs. -/
  | symmetrizationRatio (implied required : Nat)
  deriving DecidableEq, Repr, Inhabited

/-- The sentence for a violation. -/
def Violation.message : Violation → String
  | notPositive field value => field.text ++ " must be strictly positive, got " ++ toString value
  | unknownSpace value => toString value ++ " is not a valid index space id"
  | unknownRole value => toString value ++ " is not a valid index type id"
  | countMismatch quantity declared actual =>
    "declared " ++ quantity.text ++ " count " ++ toString declared
      ++ " does not match actual count " ++ toString actual
  | resultVertexMismatch position vertex duplicate =>
    "result index " ++ toString position ++ " names vertex " ++ toString vertex
      ++ " but duplicates vertex " ++ toString duplicate
  | slotCount vertex slots =>
    "vertex " ++ toString vertex ++ " declares " ++ toString slots
      ++ " space groups, expected exactly one"
  | mixedOperators expected found =>
    "super-vertex mixes operators " ++ expected ++ " and " ++ found
  | signatureMismatch vertex role expected actual =>
    "vertex " ++ toString vertex ++ " carries " ++ toString actual ++ " " ++ role.name
      ++ "s but its signature declares " ++ toString expected
  | noIndexOfSpace vertex role space position =>
    "vertex " ++ toString vertex ++ " has no available " ++ space.name ++ "-space " ++ role.name
      ++ " for signature slot " ++ toString position
  | noOrigin id space role =>
    "external " ++ role.name ++ " " ++ toString id ++ " (" ++ space.name
      ++ ") does not originate from any tensor"
  | mixedSpaces slot role count =>
    "result slot " ++ toString slot ++ " mixes " ++ toString count ++ " " ++ role.name
      ++ "s over several spaces, which is unsupported"
  | symmetrizationRatio implied required =>
    "implied symmetrizations " ++ toString implied
      ++ " are not an integer multiple of required symmetrizations " ++ toString required

/-- A violation and the number of the record it occurs in. -/
structure Rejection where
  /-- The number of the record, as written. -/
  number : Int
  /-- The broken rule. -/
  violation : Violation
  deriving DecidableEq, Repr, Inhabited

/-- The sentence for a rejection. -/
def Rejection.message (r : Rejection) : String :=
  "contraction " ++ toString r.number ++ ": " ++ r.violation.message

end TensorContraction
