import TensorContraction.Proofs.Canonical

/-!
# Where the indices of a record go

The rows of a record list indices, and the slots of its operators and of its result are
where these go.  A contraction shares the indices out: each slot carries the indices of
the rows that name it, each role apart, with the spaces in the declared order and rows of
one space in the order they are exported in.  That no index is left over or carried twice
is checked nowhere, as every slot looks for its own; only counting shows it.

## Main definitions

* `Contraction.SharesOut` — the indices of a record are where they belong.

## Main results

* `Contraction.sharesOut_of_ofRecord` — every accepted record is shared out.
-/

namespace TensorContraction.Contraction

/-! ### Sharing out -/

/-- A contraction shares the indices of a record out to its operators and its result. -/
structure SharesOut (c : Contraction) (r : Record) : Prop where
  /-- The indices on the vertices are those of the rows, in export order. -/
  vertexIndices : List.Forall₂ VertexRow.Writes r.vertexRows c.vertexIndices
  /-- So are the indices of the result. -/
  externalIndices : List.Forall₂ ResultRow.Writes r.resultRows c.externalIndices
  /-- Among the groups of the tensors each operator has one, which carries the indices that
  name the operator, arranged by its only signature. -/
  vertexGroups : ∃ places : List Nat, places.Perm (List.range r.vertices.length) ∧
    List.Forall₂ (fun i g => ∃ o signature, r.vertices[i]? = some o ∧
        o.signatures = [signature] ∧ Group.Carries g i signature c.vertexIndices)
      places (c.tensors.flatMap (·.groups))
  /-- Together these groups carry each index on a vertex once. -/
  vertexEntries : ((c.tensors.flatMap (·.groups)).flatMap (·.entries)).Perm c.vertexIndices
  /-- The result has a group for each of its slots, in order, which carries the indices that
  name the slot, arranged by its signature. -/
  resultGroups : List.Forall₂ (fun p g => Group.Carries g p.2 p.1 c.externalIndices)
    r.result.signatures.zipIdx c.result.groups
  /-- Together these groups carry each index of the result once. -/
  resultEntries : (c.result.groups.flatMap (·.entries)).Perm c.externalIndices

/-- **Every accepted record is shared out.** -/
theorem sharesOut_of_ofRecord {r : Record} {c : Contraction} (h : ofRecord r = .ok c) :
    c.SharesOut r := by
  obtain ⟨vs, hy⟩ := ofRecord_eq_ok_iff.mp h
  refine ⟨hy.vertexIndices, hy.externalIndices, ?_, hy.vertexEntries_perm, hy.resultGroups,
    hy.resultEntries_perm⟩
  refine ⟨_, hy.flatMap_members_position_perm, ?_⟩
  rw [List.forall₂_map_left_iff]
  -- the operator of a vertex is known by the position of the vertex
  have hmem : ∀ v ∈ (SuperVertex.ofVertices vs).flatMap (·.members), v ∈ vs := by
    intro v hv
    exact (SuperVertex.flatMap_members_perm vs).mem_iff.mp hv
  refine ((List.forall₂_and_left _ _).mpr ⟨hmem, hy.vertexGroups⟩).imp ?_
  intro v g hg
  obtain ⟨s, o, -, ho, hw⟩ := hy.hasVertices.exists_operator hg.1
  exact ⟨o, v.signature, ho, hw.signatures_eq, hg.2⟩

/-! ### A record with vertices out of order -/

/-- Three operators in two super-vertices, the middle one alone and transposed, and a result
with two slots whose rows come in the wrong order. -/
def crossing : Record where
  id := 1
  result := ⟨"R", false, [⟨[.occupied], []⟩, ⟨[], [.virtual]⟩]⟩
  factor := ⟨1, -1, 1 / 2⟩
  vertexCount := 3
  operatorCount := 2
  superVertices := [2, 1, 2]
  arcCount := 0
  externalArcCount := 0
  vertices := [⟨"T", false, [⟨[.occupied], []⟩]⟩, ⟨"H", true, [⟨[.virtual], [.occupied]⟩]⟩,
    ⟨"T", false, [⟨[], [.virtual, .occupied]⟩]⟩]
  arcs := []
  externalArcs := []
  vertexRows := [⟨1, 1, 1, true, 1, 1⟩, ⟨3, 2, 1, false, 1, 2⟩, ⟨2, 1, 1, false, 1, 2⟩,
    ⟨2, 2, 2, true, 1, 1⟩, ⟨3, 2, 2, false, 1, 2⟩]
  resultRows := [⟨2, 2, 2, 2, 1⟩, ⟨1, 1, 1, 1, 1⟩]

/-- What it yields: the tensors come by super-vertex, the annihilators backwards. -/
def crossingContraction : Contraction where
  id := 0
  factor := -1 / 2
  result := ⟨"R", [⟨[⟨0, .occupied, 0, .creator⟩], []⟩, ⟨[], [⟨0, .virtual, 1, .annihilator⟩]⟩],
    false⟩
  tensors := [⟨"H", [⟨[⟨1, .occupied, 1, .creator⟩], [⟨0, .virtual, 1, .annihilator⟩]⟩], true⟩,
    ⟨"T", [⟨[⟨0, .occupied, 0, .creator⟩], []⟩,
      ⟨[], [⟨1, .occupied, 2, .annihilator⟩, ⟨1, .virtual, 2, .annihilator⟩]⟩], false⟩]
  superVertices := [1, 0, 1]
  arcs := []
  externalArcs := []
  vertexIndices := [⟨0, .occupied, 0, .creator⟩, ⟨1, .occupied, 2, .annihilator⟩,
    ⟨1, .occupied, 1, .creator⟩, ⟨0, .virtual, 1, .annihilator⟩, ⟨1, .virtual, 2, .annihilator⟩]
  externalIndices := [⟨0, .virtual, 1, .annihilator⟩, ⟨0, .occupied, 0, .creator⟩]

theorem ofRecord_crossing : ofRecord crossing = .ok crossingContraction := by decide +kernel

theorem crossing_sharesOut :
    ofRecord crossing = .ok crossingContraction ∧ crossingContraction.SharesOut crossing :=
  ⟨ofRecord_crossing, sharesOut_of_ofRecord ofRecord_crossing⟩

end TensorContraction.Contraction
