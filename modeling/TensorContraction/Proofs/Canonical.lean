import Mathlib.Data.Finset.Card
import TensorContraction.Proofs.Number
import TensorContraction.Proofs.SuperVertex

/-!
# What a contraction owes to its record

A record yields a contraction if a list of conditions holds, each of which ties some
part of the contraction to some part of the record.  The list is complete: nothing
else is checked and nothing else is kept.

## Main definitions

* `Operator.signatures` — the signatures of an operator as it shows them.
* `Vertex.WrittenAs` — the operator that a record writes for a vertex.
* `Record.Yields` — a record yields a contraction, by way of its vertices.
* `Record.HasVertices` — the vertices on the way.

## Main results

* `Contraction.build_eq_ok_iff` — canonicalization computes what a record yields.
* `Record.HasVertices.exists_operator`, `Record.HasVertices.exists_vertex` — vertices and
  operators correspond.
-/

namespace TensorContraction

/-! ### Vertices -/

/-- The signatures of an operator, each exchanged if the operator is transposed. -/
def Operator.signatures (o : Operator) : List Signature := o.slots.map (·.seen o.transposed)

namespace Vertex

/-- What a record writes for a vertex: the number of its super-vertex and an operator with
one signature. -/
structure WrittenAs (v : Vertex) (position : Nat) (superVertex : Int) (o : Operator) :
    Prop where
  /-- A vertex has the position of its operator. -/
  position_eq : v.position = position
  /-- Its super-vertex is counted from one. -/
  superVertex_eq : superVertex = v.superVertex + 1
  /-- It has the name of the operator. -/
  name_eq : v.name = o.name
  /-- It has the flag of the operator. -/
  transposed_eq : v.transposed = o.transposed
  /-- It has the only signature of the operator. -/
  signatures_eq : o.signatures = [v.signature]

theorem exists_writtenAs_iff {position : Nat} {superVertex : Int} {o : Operator} :
    (∃ v : Vertex, v.WrittenAs position superVertex o) ↔ 1 ≤ superVertex ∧ o.slots.length = 1 := by
  rw [← exists_eq_succ_iff]
  constructor
  · intro h
    obtain ⟨v, h⟩ := h
    refine ⟨⟨_, h.superVertex_eq⟩, ?_⟩
    rw [← List.length_map (·.seen o.transposed)]
    exact congrArg List.length h.signatures_eq
  · intro h
    obtain ⟨⟨n, hn⟩, hslots⟩ := h
    obtain ⟨slot, hslot⟩ := List.length_eq_one_iff.mp hslots
    refine ⟨⟨position, n, o.name, o.transposed, slot.seen o.transposed⟩, rfl, hn, rfl, rfl, ?_⟩
    rw [Operator.signatures, hslot, List.map_singleton]

theorem ofOperator_eq_ok_iff {position superVertex : Nat} {o : Operator} {v : Vertex} :
    ofOperator position superVertex o = .ok v ↔ v.WrittenAs position (superVertex + 1) o := by
  unfold ofOperator
  split
  · next slot hslot =>
    rw [Except.ok.injEq]
    constructor
    · rintro rfl
      exact ⟨rfl, rfl, rfl, rfl, by rw [Operator.signatures, hslot]; rfl⟩
    · intro h
      obtain ⟨hp, hs, hn, ht, hsig⟩ := h
      rw [Operator.signatures, hslot, List.map_singleton, List.singleton_inj] at hsig
      have hs : superVertex = v.superVertex := by omega
      rw [hsig, ← hp, hs, ← hn, ← ht]
  · next hslots =>
    refine iff_of_false (by simp) fun h => ?_
    obtain ⟨slot, hslot, -⟩ := List.map_eq_singleton_iff.mp h.signatures_eq
    exact hslots slot hslot

/-- The vertices of some operators, in terms of the numbers as they are written. -/
theorem forall₂_ofOperator_iff {written : List Int} {superVertices : List Nat}
    (h : List.Forall₂ (fun (w : Int) (n : Nat) => w = n + 1) written superVertices)
    {os : List Operator} {start : Nat} {vs : List Vertex} :
    List.Forall₂ (fun p v => ofOperator p.2 p.1.1 p.1.2 = .ok v)
        ((superVertices.zip os).zipIdx start) vs ↔
      List.Forall₂ (fun p v => v.WrittenAs p.2 p.1.1 p.1.2) ((written.zip os).zipIdx start) vs := by
  induction h generalizing os start vs with
  | nil => simp
  | @cons w n written superVertices hw _ ih =>
    cases os with
    | nil => simp
    | cons o os =>
      rw [List.zip_cons_cons, List.zip_cons_cons, List.zipIdx_cons, List.zipIdx_cons,
        List.forall₂_cons_left_iff, List.forall₂_cons_left_iff]
      simp only [ih, hw]
      simp only [ofOperator_eq_ok_iff]

end Vertex

/-! ### Contractions -/

/-- A record yields a contraction, with these vertices on the way. -/
structure Record.Yields (r : Record) (vs : List Vertex) (c : Contraction) : Prop where
  /-- The contraction is numbered from zero. -/
  id_eq : r.id = c.id + 1
  /-- The declared number of vertices is theirs. -/
  vertexCount_eq : r.vertexCount = r.vertices.length
  /-- Each vertex has a super-vertex. -/
  superVertexCount_eq : r.vertexCount = r.superVertices.length
  /-- The declared number of arcs is theirs. -/
  arcCount_eq : r.arcCount = r.arcs.length
  /-- The declared number of external arcs is theirs. -/
  externalArcCount_eq : r.externalArcCount = r.externalArcs.length
  /-- Super-vertices are numbered from zero. -/
  superVertices : List.Forall₂ (fun (w : Int) (n : Nat) => w = n + 1) r.superVertices
    c.superVertices
  /-- Arcs are kept with their ends counted from zero. -/
  arcs : List.Forall₂ (fun w a => a.WrittenAs w) r.arcs c.arcs
  /-- So are external arcs. -/
  externalArcs : List.Forall₂ (fun w a => a.WrittenAs w) r.externalArcs c.externalArcs
  /-- The indices on the vertices are those of the rows, in order. -/
  vertexIndices : List.Forall₂ VertexRow.Writes r.vertexRows c.vertexIndices
  /-- The indices of the result are those of the rows, in order. -/
  externalIndices : List.Forall₂ ResultRow.Writes r.resultRows c.externalIndices
  /-- The vertices are the operators with their super-vertices, in order. -/
  vertices : List.Forall₂ (fun p v => v.WrittenAs p.2 p.1.1 p.1.2)
    (r.superVertices.zip r.vertices).zipIdx vs
  /-- The vertices ask for as many indices as there are. -/
  vertexPlaces : (vs.flatMap (·.signature.entries)).length = c.vertexIndices.length
  /-- The declared number of operators is that of super-vertices. -/
  operatorCount_eq : r.operatorCount = (SuperVertex.ofVertices vs).length
  /-- Each super-vertex is joined into a tensor. -/
  tensors : List.Forall₂ (fun s t => SuperVertex.Joins s c.vertexIndices t)
    (SuperVertex.ofVertices vs) c.tensors
  /-- The slots of the result ask for as many indices as there are. -/
  resultPlaces : (r.result.signatures.flatMap (·.entries)).length = c.externalIndices.length
  /-- Each slot of the result has its group. -/
  resultGroups : List.Forall₂ (fun p g => Group.Carries g p.2 p.1 c.externalIndices)
    r.result.signatures.zipIdx c.result.groups
  /-- The result keeps its name. -/
  resultName_eq : c.result.name = r.result.name
  /-- The result keeps its flag. -/
  resultTransposed_eq : c.result.transposed = r.result.transposed
  /-- The factor is the product of its parts. -/
  factor_eq : c.factor = r.factor.value

namespace Contraction

open Check Record

/-- The position of a row does not matter to the index it writes. -/
theorem forall₂_zipIdx_iff {rows : List ResultRow} {xs : List Index} :
    List.Forall₂ (fun p x => p.1.Writes x) rows.zipIdx xs ↔
      List.Forall₂ ResultRow.Writes rows xs := by
  rw [← List.forall₂_map_left_iff (f := Prod.fst), List.zipIdx_map_fst]

/-- **Canonicalization computes what a record yields.** -/
theorem build_eq_ok_iff {r : Record} {c : Contraction} :
    build r = .ok c ↔ ∃ vs, r.Yields vs c := by
  unfold build checkPlaces
  simp only [bind_eq_ok_iff, pure_eq_ok_iff, checkCount_eq_ok_iff, mapM_eq_ok_iff,
    fromOne_eq_ok_iff, arcOf_eq_ok_iff, vertexIndex_eq_ok_iff, externalIndex_eq_ok_iff,
    Group.ofIndices_eq_ok_iff, SuperVertex.tensor_eq_ok_iff, exists_const, forall₂_zipIdx_iff,
    List.flatMap_map, Int.ofNat_inj]
  constructor
  · intro h
    -- one check after another, with the part it returns if it returns one
    obtain ⟨id, hid, hvertices, hsupers, harcs, hexternals, supers, hs, arcs, ha, externals, he,
      xs, hx, ys, hy, vs, hv, hplaces, hoperators, tensors, ht, hresult, groups, hg, rfl⟩ := h
    exact ⟨vs, hid, hvertices, hsupers, harcs, hexternals, hs, ha, he, hx, hy,
      (Vertex.forall₂_ofOperator_iff hs).mp hv, hplaces, hoperators, ht,
      by rw [Operator.signatures, List.flatMap_map]; exact hresult, hg, rfl, rfl, rfl⟩
  · intro h
    obtain ⟨vs, h⟩ := h
    refine ⟨_, h.id_eq, h.vertexCount_eq, h.superVertexCount_eq, h.arcCount_eq,
      h.externalArcCount_eq, _, h.superVertices, _, h.arcs, _, h.externalArcs, _,
      h.vertexIndices, _, h.externalIndices, vs,
      (Vertex.forall₂_ofOperator_iff h.superVertices).mpr h.vertices, h.vertexPlaces,
      h.operatorCount_eq, _, h.tensors, ?_, _, h.resultGroups, ?_⟩
    · rw [← h.resultPlaces, Operator.signatures, List.flatMap_map]
    · rw [← h.factor_eq, ← h.resultName_eq, ← h.resultTransposed_eq]

theorem ofRecord_eq_ok_iff {r : Record} {c : Contraction} :
    ofRecord r = .ok c ↔ ∃ vs, r.Yields vs c := by
  rw [ofRecord, mapError_eq_ok_iff, build_eq_ok_iff]

end Contraction

/-! ### Vertices and operators -/

namespace Record

variable {r : Record} {vs : List Vertex} {c : Contraction}

/-- The vertices of a record are its operators with their super-vertices, in order. -/
structure HasVertices (r : Record) (vs : List Vertex) : Prop where
  /-- Each operator has a super-vertex. -/
  length_eq : r.superVertices.length = r.vertices.length
  /-- Operators and vertices stand against each other. -/
  vertices : List.Forall₂ (fun p v => v.WrittenAs p.2 p.1.1 p.1.2)
    (r.superVertices.zip r.vertices).zipIdx vs

theorem Yields.hasVertices (h : r.Yields vs c) : r.HasVertices vs where
  length_eq := by
    have h₁ := h.vertexCount_eq
    have h₂ := h.superVertexCount_eq
    omega
  vertices := h.vertices

namespace HasVertices

/-- The positions of the vertices count them. -/
theorem map_position (h : r.HasVertices vs) :
    vs.map (·.position) = List.range r.vertices.length := by
  rw [← Check.map_eq_of_forall₂ (f := Prod.snd) (fun _ _ hw => hw.position_eq.symm) h.vertices,
    List.zipIdx_map_snd, List.length_zip, h.length_eq, Nat.min_self, List.range_eq_range']

theorem length_vertices (h : r.HasVertices vs) : vs.length = r.vertices.length := by
  have hlength := congrArg List.length h.map_position
  rwa [List.length_map, List.length_range] at hlength

theorem nodup_position (h : r.HasVertices vs) : (vs.map (·.position)).Nodup := by
  rw [h.map_position]
  exact List.nodup_range

theorem pairwise_position (h : r.HasVertices vs) :
    vs.Pairwise fun v w => v.position < w.position := by
  have hposition : (vs.map (·.position)).Pairwise (· < ·) := by
    rw [h.map_position]
    exact List.pairwise_lt_range
  exact List.pairwise_map.mp hposition

/-- Each vertex is written as the operator of its position. -/
theorem exists_operator (h : r.HasVertices vs) {v : Vertex} (hv : v ∈ vs) :
    ∃ s o, r.superVertices[v.position]? = some s ∧ r.vertices[v.position]? = some o ∧
      v.WrittenAs v.position s o := by
  obtain ⟨⟨⟨s, o⟩, i⟩, hmem, hw⟩ := Check.exists_left_of_forall₂ h.vertices hv
  obtain rfl : v.position = i := hw.position_eq
  rw [List.mem_zipIdx_iff_getElem?, List.getElem?_zip_eq_some] at hmem
  exact ⟨s, o, hmem.1, hmem.2, hw⟩

/-- Each operator is written for the vertex of its position. -/
theorem exists_vertex (h : r.HasVertices vs) {i : Nat} {o : Operator}
    (ho : r.vertices[i]? = some o) :
    ∃ v ∈ vs, ∃ s, r.superVertices[i]? = some s ∧ v.WrittenAs i s o := by
  have hi : i < r.superVertices.length := by
    rw [h.length_eq]
    exact (List.getElem?_eq_some_iff.mp ho).1
  have hs := List.getElem?_eq_getElem hi
  have hmem : ((r.superVertices[i], o), i) ∈ (r.superVertices.zip r.vertices).zipIdx := by
    rw [List.mem_zipIdx_iff_getElem?, List.getElem?_zip_eq_some]
    exact ⟨hs, ho⟩
  obtain ⟨v, hv, hw⟩ := Check.exists_right_of_forall₂ h.vertices hmem
  exact ⟨v, hv, _, hs, hw⟩

/-- What holds of a vertex at any position holds of the operators with their
super-vertices. -/
theorem forall₂_zip (h : r.HasVertices vs) :
    List.Forall₂ (fun p v => ∃ i, v.WrittenAs i p.1 p.2) (r.superVertices.zip r.vertices) vs := by
  rw [← List.zipIdx_map_fst 0 (r.superVertices.zip r.vertices), List.forall₂_map_left_iff]
  exact h.vertices.imp fun p _ hw => ⟨p.2, hw⟩

theorem superVertices_eq (h : r.HasVertices vs) :
    r.superVertices = vs.map fun v => (v.superVertex : Int) + 1 := by
  rw [← Check.map_eq_of_forall₂ (f := Prod.fst) (fun _ _ ⟨_, hw⟩ => hw.superVertex_eq)
    h.forall₂_zip, List.map_fst_zip h.length_eq.le]

/-- There are as many super-vertices as distinct numbers of them. -/
theorem length_ofVertices (h : r.HasVertices vs) :
    (SuperVertex.ofVertices vs).length = r.superVertices.toFinset.card := by
  rw [SuperVertex.length_ofVertices, ← Finset.card_image_of_injective _ succ_injective,
    h.superVertices_eq]
  congr 1
  ext s
  simp

/-- Names agree within super-vertices exactly if operators of one super-vertex have one
name. -/
theorem others_agree_iff (h : r.HasVertices vs) :
    (∀ s ∈ SuperVertex.ofVertices vs, ∀ v ∈ s.others, v.name = s.first.name) ↔
      ∀ p ∈ r.superVertices.zip r.vertices, ∀ q ∈ r.superVertices.zip r.vertices,
        p.1 = q.1 → p.2.name = q.2.name := by
  rw [SuperVertex.others_agree_iff]
  refine (Check.forall_mem_of_forall₂ ?_ h.forall₂_zip).symm
  rintro p v ⟨i, hp⟩
  refine Check.forall_mem_of_forall₂ ?_ h.forall₂_zip
  rintro q w ⟨j, hq⟩
  rw [hp.superVertex_eq, hq.superVertex_eq, hp.name_eq, hq.name_eq]
  constructor
  · intro hname hvw
    exact hname (by rw [hvw])
  · intro hname hvw
    exact hname (by omega)

end HasVertices

/-! ### The groups of a contraction -/

namespace Yields

/-- The groups of the tensors, one after another, are those of the vertices, super-vertex by
super-vertex. -/
theorem vertexGroups (h : r.Yields vs c) :
    List.Forall₂ (fun v g => Group.Carries g v.position v.signature c.vertexIndices)
      ((SuperVertex.ofVertices vs).flatMap (·.members)) (c.tensors.flatMap (·.groups)) :=
  List.rel_flatMap h.tensors fun _ _ hs => hs.groups

theorem flatMap_members_position_perm (h : r.Yields vs c) :
    (((SuperVertex.ofVertices vs).flatMap (·.members)).map (·.position)).Perm
      (List.range r.vertices.length) := by
  rw [← h.hasVertices.map_position]
  exact (SuperVertex.flatMap_members_perm vs).map _

/-- **No index of a vertex is lost or doubled.** -/
theorem vertexEntries_perm (h : r.Yields vs c) :
    ((c.tensors.flatMap (·.groups)).flatMap (·.entries)).Perm c.vertexIndices := by
  have hnodup := h.flatMap_members_position_perm.nodup_iff.mpr List.nodup_range
  -- sorting the vertices into super-vertices does not change what they ask for together
  refine entries_perm_of_all_placed hnodup h.vertexGroups
    ((all_placed_iff hnodup h.vertexGroups).mp ?_)
  rw [← h.vertexPlaces]
  exact ((SuperVertex.flatMap_members_perm vs).flatMap_right _).length_eq

/-- **No index of the result is lost or doubled.** -/
theorem resultEntries_perm (h : r.Yields vs c) :
    (c.result.groups.flatMap (·.entries)).Perm c.externalIndices := by
  have hnodup : (r.result.signatures.zipIdx.map Prod.snd).Nodup := by
    rw [List.zipIdx_map_snd]
    exact List.nodup_range' 1 Nat.one_pos
  refine entries_perm_of_all_placed hnodup h.resultGroups
    ((all_placed_iff hnodup h.resultGroups).mp ?_)
  rw [← h.resultPlaces, ← List.flatMap_map, List.zipIdx_map_fst]

end Yields
end Record
end TensorContraction
