import TensorContraction.Proofs.Canonical

/-!
# Which records are accepted

The checks of canonicalization are spread over its steps, and some of them only meet in
the middle: that no index is left over follows from a count of all places together with
one arrangement for each place.  Said of the record alone, a record is accepted if its
numbers make sense and if the rows of each vertex and of each slot of the result have
the declared spaces, in any order.

## Main definitions

* `Record.vertexSpaces`, `Record.resultSpaces` — the spaces that rows write for a place.
* `Record.Coherent` — the numbers make sense and the vertices find their indices.
* `Record.ResultFits` — so do the slots of the result.

## Main results

* `Record.exists_ofRecord_iff` — these are the records that are accepted.
-/

namespace TensorContraction

/-! ### Conditions on a record -/

namespace Record

/-- The spaces that a record writes for the indices of a role on a vertex. -/
def vertexSpaces (r : Record) (place : Nat) (role : Role) : List Int :=
  (r.vertexRows.filter fun row => row.vertex == (place : Int) + 1 && row.role == role.code).map
    (·.space)

/-- The spaces that a record writes for the indices of a role in a slot of the result. -/
def resultSpaces (r : Record) (place : Nat) (role : Role) : List Int :=
  (r.resultRows.filter fun row => row.vertex == (place : Int) + 1 && row.role == role.code).map
    (·.space)

/-- The numbers of a record make sense, and the rows of each vertex have the spaces that
its signature declares. -/
structure Coherent (r : Record) : Prop where
  /-- The record is counted from one. -/
  id_pos : 1 ≤ r.id
  /-- The declared number of vertices is theirs. -/
  vertexCount_eq : r.vertexCount = r.vertices.length
  /-- Each vertex has a super-vertex. -/
  superVertexCount_eq : r.vertexCount = r.superVertices.length
  /-- The declared number of arcs is theirs. -/
  arcCount_eq : r.arcCount = r.arcs.length
  /-- The declared number of external arcs is theirs. -/
  externalArcCount_eq : r.externalArcCount = r.externalArcs.length
  /-- Super-vertices are counted from one. -/
  superVertices_pos : ∀ s ∈ r.superVertices, 1 ≤ s
  /-- So are both ends of an arc. -/
  arcs_pos : ∀ a ∈ r.arcs, 1 ≤ a.first ∧ 1 ≤ a.second
  /-- So are both ends of an external arc. -/
  externalArcs_pos : ∀ a ∈ r.externalArcs, 1 ≤ a.first ∧ 1 ≤ a.second
  /-- The numbers of a row on a vertex are in range. -/
  vertexRows_inRange : ∀ row ∈ r.vertexRows, 1 ≤ row.arc ∧ 1 ≤ row.id ∧
    (1 ≤ row.space ∧ row.space ≤ 3) ∧ 1 ≤ row.vertex ∧ 1 ≤ row.role ∧ row.role ≤ 2
  /-- The numbers of a row of the result are in range, and it names its slot twice. -/
  resultRows_inRange : ∀ row ∈ r.resultRows, row.vertex = row.duplicate ∧ 1 ≤ row.id ∧
    (1 ≤ row.space ∧ row.space ≤ 3) ∧ 1 ≤ row.vertex ∧ 1 ≤ row.role ∧ row.role ≤ 2
  /-- Each vertex declares exactly one signature. -/
  oneSlot : ∀ o ∈ r.vertices, o.slots.length = 1
  /-- The declared number of operators is that of super-vertices. -/
  operatorCount_eq : r.operatorCount = r.superVertices.toFinset.card
  /-- Vertices of one super-vertex have one name. -/
  oneName : ∀ p ∈ r.superVertices.zip r.vertices, ∀ q ∈ r.superVertices.zip r.vertices,
    p.1 = q.1 → p.2.name = q.2.name
  /-- The rows of a vertex have the declared spaces, in any order. -/
  spaces_perm : ∀ i o, r.vertices[i]? = some o → ∀ s ∈ o.signatures, ∀ role,
    (r.vertexSpaces i role).Perm ((s.on role).map Space.code)
  /-- No row names a vertex beyond the last. -/
  vertex_le : ∀ row ∈ r.vertexRows, row.vertex ≤ r.vertices.length

/-- The rows of each slot of the result have the spaces that the slot declares. -/
structure ResultFits (r : Record) : Prop where
  /-- The rows of a slot have the declared spaces, in any order. -/
  spaces_perm : ∀ i s, r.result.signatures[i]? = some s → ∀ role,
    (r.resultSpaces i role).Perm ((s.on role).map Space.code)
  /-- No row names a slot beyond the last. -/
  slot_le : ∀ row ∈ r.resultRows, row.vertex ≤ r.result.slots.length

/-! ### Spaces as rows write them and as indices have them -/

/-- What rows write for a place are the codes of what the indices have. -/
theorem map_space_filter_eq {ρ : Type} {id space vertex role : ρ → Int} {rows : List ρ}
    {xs : List Index}
    (h : List.Forall₂ (fun row x => x.WrittenAs (id row) (space row) (vertex row) (role row))
      rows xs) (place : Nat) (q : Role) :
    (rows.filter fun row => vertex row == (place : Int) + 1 && role row == q.code).map space =
      ((held xs place q).map (·.space)).map Space.code := by
  rw [List.map_map]
  refine Check.map_filter_eq_of_forall₂ (fun row x hx => ?_) (fun row x hx => hx.space_eq) h
  have hvertex : vertex row = (place : Int) + 1 ↔ x.vertex = place := by
    rw [hx.vertex_eq]
    omega
  have hrole : role row = q.code ↔ x.role = q := by rw [hx.role_eq, Role.code_inj]
  rw [Bool.eq_iff_iff, Bool.and_eq_true, Bool.and_eq_true, beq_iff_eq, beq_iff_eq, beq_iff_eq,
    beq_iff_eq, hvertex, hrole]

theorem exists_carries_iff_of_map_eq {written : Role → List Int} {place : Nat}
    {signature : Signature} {pool : List Index}
    (h : ∀ role, written role = ((held pool place role).map (·.space)).map Space.code) :
    (∃ g, Group.Carries g place signature pool) ↔
      ∀ role, (written role).Perm ((signature.on role).map Space.code) := by
  have hinj : Function.Injective Space.code := fun _ _ => Space.code_inj.mp
  rw [Group.exists_carries_iff]
  refine forall_congr' fun role => ?_
  rw [h role, List.map_perm_map_iff hinj]

theorem exists_vertexGroup_iff {r : Record} {xs : List Index}
    (h : List.Forall₂ VertexRow.Writes r.vertexRows xs) {place : Nat} {signature : Signature} :
    (∃ g, Group.Carries g place signature xs) ↔
      ∀ role, (r.vertexSpaces place role).Perm ((signature.on role).map Space.code) :=
  exists_carries_iff_of_map_eq (map_space_filter_eq (h.imp fun _ _ hx => hx.2) place)

theorem exists_resultGroup_iff {r : Record} {xs : List Index}
    (h : List.Forall₂ ResultRow.Writes r.resultRows xs) {place : Nat} {signature : Signature} :
    (∃ g, Group.Carries g place signature xs) ↔
      ∀ role, (r.resultSpaces place role).Perm ((signature.on role).map Space.code) :=
  exists_carries_iff_of_map_eq (map_space_filter_eq (h.imp fun _ _ hx => hx.2) place)

/-! ### The vertices together -/

variable {r : Record} {vs : List Vertex} {xs : List Index}

theorem HasVertices.forall_exists_group_iff (h : r.HasVertices vs)
    (hxs : List.Forall₂ VertexRow.Writes r.vertexRows xs) :
    (∀ v ∈ vs, ∃ g, Group.Carries g v.position v.signature xs) ↔
      ∀ i o, r.vertices[i]? = some o → ∀ s ∈ o.signatures, ∀ role,
        (r.vertexSpaces i role).Perm ((s.on role).map Space.code) := by
  constructor
  · intro hall i o ho s hs
    obtain ⟨v, hv, number, -, hw⟩ := h.exists_vertex ho
    rw [hw.signatures_eq, List.mem_singleton] at hs
    rw [← exists_vertexGroup_iff hxs, hs, ← hw.position_eq]
    exact hall v hv
  · intro hall v hv
    obtain ⟨number, o, -, ho, hw⟩ := h.exists_operator hv
    rw [exists_vertexGroup_iff hxs]
    refine hall v.position o ho v.signature ?_
    rw [hw.signatures_eq]
    exact List.mem_singleton_self _

/-- The vertices ask for as many indices as there are exactly if no row names a vertex
beyond the last. -/
theorem HasVertices.vertexPlaces_iff (h : r.HasVertices vs)
    (hxs : List.Forall₂ VertexRow.Writes r.vertexRows xs)
    (hgroups : ∀ v ∈ vs, ∃ g, Group.Carries g v.position v.signature xs) :
    (vs.flatMap (·.signature.entries)).length = xs.length ↔
      ∀ row ∈ r.vertexRows, row.vertex ≤ r.vertices.length := by
  obtain ⟨groups, hgroups⟩ := Check.exists_forall₂_iff.mpr hgroups
  rw [all_placed_iff h.nodup_position hgroups, h.map_position]
  refine (Check.forall_mem_of_forall₂ (fun row x hx => ?_) hxs).symm
  rw [hx.2.vertex_eq, List.mem_range]
  omega

/-- Every super-vertex can be joined exactly if names agree and every vertex finds its
indices. -/
theorem HasVertices.exists_tensors_iff (h : r.HasVertices vs) :
    (∃ ts, List.Forall₂ (fun s t => SuperVertex.Joins s xs t) (SuperVertex.ofVertices vs) ts) ↔
      (∀ p ∈ r.superVertices.zip r.vertices, ∀ q ∈ r.superVertices.zip r.vertices,
        p.1 = q.1 → p.2.name = q.2.name) ∧
      ∀ v ∈ vs, ∃ g, Group.Carries g v.position v.signature xs := by
  rw [Check.exists_forall₂_iff, ← h.others_agree_iff]
  simp only [SuperVertex.exists_joins_iff]
  constructor
  · intro hall
    refine ⟨fun s hs => (hall s hs).1, fun v hv => ?_⟩
    obtain ⟨s, hs, hvs⟩ := SuperVertex.exists_mem_members hv
    exact (hall s hs).2 v hvs
  · intro hall s hs
    obtain ⟨hagree, hgroups⟩ := hall
    refine ⟨hagree s hs, fun v hv => hgroups v ?_⟩
    exact (SuperVertex.flatMap_members_perm vs).mem_iff.mp (List.mem_flatMap.mpr ⟨s, hs, hv⟩)

/-! ### The result -/

theorem exists_resultGroups_iff (hxs : List.Forall₂ ResultRow.Writes r.resultRows xs) :
    (∃ gs, List.Forall₂ (fun p g => Group.Carries g p.2 p.1 xs) r.result.signatures.zipIdx gs) ↔
      ∀ i s, r.result.signatures[i]? = some s → ∀ role,
        (r.resultSpaces i role).Perm ((s.on role).map Space.code) := by
  rw [Check.exists_forall₂_iff]
  simp only [exists_resultGroup_iff hxs, Prod.forall, List.mem_zipIdx_iff_getElem?]
  exact forall_comm

/-- The slots ask for as many indices as there are exactly if no row names a slot beyond the
last. -/
theorem resultPlaces_iff (hxs : List.Forall₂ ResultRow.Writes r.resultRows xs)
    (hgroups : ∃ gs, List.Forall₂ (fun p g => Group.Carries g p.2 p.1 xs)
      r.result.signatures.zipIdx gs) :
    (r.result.signatures.flatMap (·.entries)).length = xs.length ↔
      ∀ row ∈ r.resultRows, row.vertex ≤ r.result.slots.length := by
  obtain ⟨groups, hgroups⟩ := hgroups
  have hplaces : (r.result.signatures.zipIdx.map Prod.snd) = List.range r.result.slots.length := by
    rw [List.zipIdx_map_snd, List.range_eq_range', Operator.signatures, List.length_map]
  have hcount := all_placed_iff (by rw [hplaces]; exact List.nodup_range) hgroups
  rw [← List.flatMap_map, List.zipIdx_map_fst] at hcount
  rw [hcount, hplaces]
  refine (Check.forall_mem_of_forall₂ (fun row x hx => ?_) hxs).symm
  rw [hx.2.vertex_eq, List.mem_range]
  omega

/-! ### Acceptance -/

theorem Yields.coherent {c : Contraction} (h : r.Yields vs c) : r.Coherent := by
  have hvs := h.hasVertices
  obtain ⟨hnames, hgroups⟩ := hvs.exists_tensors_iff.mp ⟨_, h.tensors⟩
  refine ⟨exists_eq_succ_iff.mp ⟨_, h.id_eq⟩, h.vertexCount_eq, h.superVertexCount_eq,
    h.arcCount_eq, h.externalArcCount_eq, fun s hs => ?_, fun a ha => ?_, fun a ha => ?_,
    fun row hrow => ?_, fun row hrow => ?_, fun o ho => ?_, ?_, hnames,
    (hvs.forall_exists_group_iff h.vertexIndices).mp hgroups,
    (hvs.vertexPlaces_iff h.vertexIndices hgroups).mp h.vertexPlaces⟩
  · exact exists_eq_succ_iff.mp (Check.exists_forall₂_iff.mp ⟨_, h.superVertices⟩ s hs)
  · exact Arc.exists_writtenAs_iff.mp (Check.exists_forall₂_iff.mp ⟨_, h.arcs⟩ a ha)
  · exact Arc.exists_writtenAs_iff.mp (Check.exists_forall₂_iff.mp ⟨_, h.externalArcs⟩ a ha)
  · exact VertexRow.exists_writes_iff.mp (Check.exists_forall₂_iff.mp ⟨_, h.vertexIndices⟩ row hrow)
  · exact ResultRow.exists_writes_iff.mp
      (Check.exists_forall₂_iff.mp ⟨_, h.externalIndices⟩ row hrow)
  · obtain ⟨i, hi⟩ := List.mem_iff_getElem?.mp ho
    obtain ⟨v, -, number, -, hw⟩ := hvs.exists_vertex hi
    exact (Vertex.exists_writtenAs_iff.mp ⟨v, hw⟩).2
  · rw [h.operatorCount_eq, hvs.length_ofVertices]

theorem Yields.resultFits {c : Contraction} (h : r.Yields vs c) : r.ResultFits where
  spaces_perm := (exists_resultGroups_iff h.externalIndices).mp ⟨_, h.resultGroups⟩
  slot_le := (resultPlaces_iff h.externalIndices ⟨_, h.resultGroups⟩).mp h.resultPlaces

theorem Coherent.exists_hasVertices (h : r.Coherent) : ∃ vs, r.HasVertices vs := by
  have hlength : r.superVertices.length = r.vertices.length := by
    have h₁ := h.vertexCount_eq
    have h₂ := h.superVertexCount_eq
    omega
  have hone : ∀ p ∈ (r.superVertices.zip r.vertices).zipIdx,
      ∃ v : Vertex, v.WrittenAs p.2 p.1.1 p.1.2 := by
    intro p hp
    obtain ⟨⟨s, o⟩, i⟩ := p
    have hmem := List.of_mem_zip (List.fst_mem_of_mem_zipIdx hp)
    exact Vertex.exists_writtenAs_iff.mpr ⟨h.superVertices_pos s hmem.1, h.oneSlot o hmem.2⟩
  obtain ⟨vs, hvs⟩ := Check.exists_forall₂_iff.mpr hone
  exact ⟨vs, hlength, hvs⟩

theorem Coherent.exists_yields (h : r.Coherent) (hr : r.ResultFits) :
    ∃ vs c, r.Yields vs c := by
  -- each part of the contraction exists by one condition
  obtain ⟨id, hid⟩ := exists_eq_succ_iff.mpr h.id_pos
  obtain ⟨supers, hsupers⟩ := Check.exists_forall₂_iff.mpr fun s hs =>
    exists_eq_succ_iff.mpr (h.superVertices_pos s hs)
  obtain ⟨arcs, harcs⟩ := Check.exists_forall₂_iff.mpr fun a ha =>
    Arc.exists_writtenAs_iff.mpr (h.arcs_pos a ha)
  obtain ⟨externals, hexternals⟩ := Check.exists_forall₂_iff.mpr fun a ha =>
    Arc.exists_writtenAs_iff.mpr (h.externalArcs_pos a ha)
  obtain ⟨xs, hxs⟩ := Check.exists_forall₂_iff.mpr fun row hrow =>
    VertexRow.exists_writes_iff.mpr (h.vertexRows_inRange row hrow)
  obtain ⟨ys, hys⟩ := Check.exists_forall₂_iff.mpr fun row hrow =>
    ResultRow.exists_writes_iff.mpr (h.resultRows_inRange row hrow)
  -- the tensors need all vertices to find their indices first
  obtain ⟨vs, hvs⟩ := h.exists_hasVertices
  have hgroups := (hvs.forall_exists_group_iff hxs).mpr h.spaces_perm
  obtain ⟨tensors, htensors⟩ := hvs.exists_tensors_iff.mpr ⟨h.oneName, hgroups⟩
  obtain ⟨groups, hresult⟩ := (exists_resultGroups_iff hys).mpr hr.spaces_perm
  refine ⟨vs, ⟨id, r.factor.value, ⟨r.result.name, groups, r.result.transposed⟩, tensors, supers,
    arcs, externals, xs, ys⟩, ?_⟩
  exact {
    id_eq := hid
    vertexCount_eq := h.vertexCount_eq
    superVertexCount_eq := h.superVertexCount_eq
    arcCount_eq := h.arcCount_eq
    externalArcCount_eq := h.externalArcCount_eq
    superVertices := hsupers
    arcs := harcs
    externalArcs := hexternals
    vertexIndices := hxs
    externalIndices := hys
    vertices := hvs.vertices
    vertexPlaces := (hvs.vertexPlaces_iff hxs hgroups).mpr h.vertex_le
    operatorCount_eq := by rw [h.operatorCount_eq, hvs.length_ofVertices]
    tensors := htensors
    resultPlaces := (resultPlaces_iff hys ⟨groups, hresult⟩).mpr hr.slot_le
    resultGroups := hresult
    resultName_eq := rfl
    resultTransposed_eq := rfl
    factor_eq := rfl }

/-- **A record is accepted exactly if its numbers make sense and every place finds the
spaces it declares**, the vertices among the rows of the vertices and the slots of the
result among the rows of the result. -/
theorem exists_ofRecord_iff (r : Record) :
    (∃ c, Contraction.ofRecord r = .ok c) ↔ r.Coherent ∧ r.ResultFits := by
  simp only [Contraction.ofRecord_eq_ok_iff]
  constructor
  · intro h
    obtain ⟨c, vs, h⟩ := h
    exact ⟨h.coherent, h.resultFits⟩
  · intro h
    obtain ⟨h, hr⟩ := h
    obtain ⟨vs, c, hc⟩ := h.exists_yields hr
    exact ⟨c, vs, hc⟩

/-- A record of a result without indices, with a row that writes one for it. -/
def strayIndex : Record where
  id := 1
  result := ⟨"R", false, [⟨[], []⟩]⟩
  factor := ⟨1, 1, 1⟩
  vertexCount := 0
  operatorCount := 0
  superVertices := []
  arcCount := 0
  externalArcCount := 0
  vertices := []
  arcs := []
  externalArcs := []
  vertexRows := []
  resultRows := [⟨1, 1, 1, 1, 1⟩]

/-- **Coherence alone does not get a record accepted.**  An index that no slot of the result
has a place for breaks none of its conditions. -/
theorem not_accepted_iff_coherent :
    ¬ ((∃ c, Contraction.ofRecord strayIndex = .ok c) ↔ strayIndex.Coherent) := by
  have hrejected : Contraction.ofRecord strayIndex =
      .error ⟨1, .countMismatch .resultIndex 0 1⟩ := rfl
  have hcoherent : strayIndex.Coherent := by
    constructor
    case spaces_perm => intro i o ho; simp [strayIndex] at ho
    all_goals simp [strayIndex]
  rw [hrejected]
  simp [hcoherent]

end Record
end TensorContraction
