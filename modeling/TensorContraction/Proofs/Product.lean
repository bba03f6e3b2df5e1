import Mathlib.Data.List.SplitBy
import TensorContraction.Proofs.Placement

/-!
# The tensors of a product

The operators of a record carry numbers that say which of them belong together.  Any numbers
will do: they may leave gaps, and operators that belong together need not stand together.  The
product has one tensor for each number that occurs, by ascending number, and within a tensor the
groups come by the position of their operators.  The same classes come out if the positions are
sorted by number and cut wherever the number changes, as sorting keeps positions of one number in
their order.

## Main definitions

* `Record.verticesOf` — the positions of the operators of a number.
* `Record.runsOfVertices` — the positions sorted by number and cut.
* `Tensor.Unites` — a tensor unites the operators of a number.

## Main results

* `Record.HasVertices.map_position_filter` — vertices of a super-vertex stand at the positions of
  its number.
* `Record.map_verticesOf_eq_runsOfVertices` — the two ways to find the classes agree.
* `Contraction.tensors_unite` — the tensors are the super-vertices.
-/

namespace TensorContraction

/-- The positions of the operators that carry a number, ascending. -/
def Record.verticesOf (r : Record) (number : Int) : List Nat :=
  (List.range r.vertices.length).filter fun i => r.superVertices[i]? == some number

/-- The number that the operator at a position carries. -/
def Record.numberAt (r : Record) (position : Nat) : Int := r.superVertices.getD position 0

/-- The positions of the operators, sorted by number and cut where the number changes. -/
def Record.runsOfVertices (r : Record) : List (List Nat) :=
  (Ascending.sortOn r.numberAt (List.range r.vertices.length)).splitBy fun i j =>
    r.numberAt i == r.numberAt j

/-- A tensor unites the operators of a record that carry a number. -/
structure Tensor.Unites (t : Tensor) (r : Record) (number : Int) (pool : List Index) : Prop where
  /-- It has one group for each of the operators, by position, which carries the indices of a
  pool that name the operator. -/
  groups : List.Forall₂ (fun i g => ∃ o signature, r.vertices[i]? = some o ∧
    o.signatures = [signature] ∧ Group.Carries g i signature pool) (r.verticesOf number) t.groups
  /-- All the operators have its name. -/
  name_eq : ∀ i ∈ r.verticesOf number, ∀ o ∈ r.vertices[i]?, o.name = t.name
  /-- It is transposed if the first of them is. -/
  transposed_eq : ∃ i ∈ (r.verticesOf number).head?, ∃ o ∈ r.vertices[i]?,
    o.transposed = t.transposed

namespace Record

variable {r : Record} {vs : List Vertex} {c : Contraction}

/-! ### Two ways to find the classes -/

theorem mem_verticesOf {number : Int} {i : Nat} :
    i ∈ r.verticesOf number ↔ i < r.vertices.length ∧ r.superVertices[i]? = some number := by
  rw [verticesOf, List.mem_filter, List.mem_range, beq_iff_eq]

theorem numberAt_of_mem {number : Int} {i : Nat} (h : i ∈ r.verticesOf number) :
    r.numberAt i = number := by
  rw [numberAt, List.getD_eq_getElem?_getD, (mem_verticesOf.mp h).2, Option.getD_some]

theorem verticesOf_ne_nil (hlen : r.superVertices.length = r.vertices.length) {number : Int}
    (h : number ∈ r.superVertices) : r.verticesOf number ≠ [] := by
  obtain ⟨i, hi⟩ := List.mem_iff_getElem?.mp h
  have hlt := (List.getElem?_eq_some_iff.mp hi).1
  exact List.ne_nil_of_mem (mem_verticesOf.mpr ⟨hlen ▸ hlt, hi⟩)

/-- **The classes are the runs of the sorted positions.** -/
theorem map_verticesOf_eq_runsOfVertices (hlen : r.superVertices.length = r.vertices.length)
    {numbers : List Int} (hlt : numbers.Pairwise (· < ·))
    (hmem : ∀ number ∈ numbers, number ∈ r.superVertices)
    (hperm : (numbers.flatMap r.verticesOf).Perm (List.range r.vertices.length)) :
    numbers.map r.verticesOf = r.runsOfVertices := by
  -- both lists of positions go by number first and by position then
  have hclasses : (numbers.flatMap r.verticesOf).Pairwise fun i j =>
      r.numberAt i < r.numberAt j ∨ r.numberAt i = r.numberAt j ∧ i < j := by
    rw [List.flatMap_def, List.pairwise_flatten, List.forall_mem_map, List.pairwise_map]
    constructor
    · intro number _
      refine (List.pairwise_lt_range.filter _).imp_of_mem fun hi hj hij => .inr ⟨?_, hij⟩
      rw [numberAt_of_mem hi, numberAt_of_mem hj]
    · refine hlt.imp fun hnumber i hi j hj => .inl ?_
      rwa [numberAt_of_mem hi, numberAt_of_mem hj]
  have hsorted : Ascending.sortOn r.numberAt (List.range r.vertices.length) =
      (numbers.map r.verticesOf).flatten := by
    refine ((Ascending.sortOn_perm _ _).trans hperm.symm).eq_of_pairwise ?_
      (Ascending.sortOn_stable r.numberAt List.pairwise_lt_range) hclasses
    intro i j _ _ hij hji
    omega
  refine (List.splitBy_eq_iff.mpr ⟨hsorted, ?_, ?_, ?_⟩).symm
  · rw [List.mem_map]
    rintro ⟨number, hnumber, hnil⟩
    exact verticesOf_ne_nil hlen (hmem number hnumber) hnil
  · refine List.forall_mem_map.mpr fun number _ => List.Pairwise.isChain ?_
    refine (List.pairwise_of_forall_mem_list fun i hi j hj => ?_)
    rw [numberAt_of_mem hi, numberAt_of_mem hj, beq_self_eq_true]
  · refine (List.isChain_map _).mpr (List.Pairwise.isChain (hlt.imp_of_mem fun hn hm hnm => ?_))
    have hn := verticesOf_ne_nil hlen (hmem _ hn)
    have hm := verticesOf_ne_nil hlen (hmem _ hm)
    refine ⟨hn, hm, beq_eq_false_iff_ne.mpr ?_⟩
    rw [numberAt_of_mem (List.getLast_mem hn), numberAt_of_mem (List.head_mem hm)]
    exact hnm.ne

/-! ### Vertices and tensors -/

/-- The numbers of the super-vertices as a record writes them, ascending. -/
def writtenNumbers (vs : List Vertex) : List Int :=
  (Ascending.ofList (vs.map (·.superVertex))).map fun n : Nat => (n : Int) + 1

theorem writtenNumbers_pairwise (vs : List Vertex) : (writtenNumbers vs).Pairwise (· < ·) := by
  refine List.pairwise_map.mpr ((Ascending.ofList_pairwise _).imp fun hab => ?_)
  omega

theorem HasVertices.mem_writtenNumbers (h : r.HasVertices vs) {number : Int} :
    number ∈ writtenNumbers vs ↔ number ∈ r.superVertices := by
  rw [h.superVertices_eq, writtenNumbers]
  simp

/-- The vertices of a super-vertex stand at the positions of the operators with its number. -/
theorem HasVertices.map_position_filter (h : r.HasVertices vs) (n : Nat) :
    (vs.filter (·.superVertex == n)).map (·.position) = r.verticesOf (n + 1) := by
  rw [verticesOf, ← h.map_position, List.filter_map]
  refine congrArg _ (List.filter_congr fun v hv => ?_)
  obtain ⟨s, o, hs, -, hw⟩ := h.exists_operator hv
  rw [Function.comp_apply, hs, hw.superVertex_eq, Bool.eq_iff_iff, beq_iff_eq, beq_iff_eq,
    Option.some.injEq]
  omega

/-- The numbers of the super-vertices as the record writes them. -/
theorem HasVertices.superVertices_members (h : r.HasVertices vs) :
    List.Forall₂ (fun number s => s.members.map (·.position) = r.verticesOf number)
      (writtenNumbers vs) (SuperVertex.ofVertices vs) := by
  rw [writtenNumbers, List.forall₂_map_left_iff]
  have hmembers := SuperVertex.ofVertices_map_members vs
  rw [← List.forall₂_eq_eq_eq, List.forall₂_map_left_iff, List.forall₂_map_right_iff] at hmembers
  refine hmembers.flip.imp fun n s hs => ?_
  rw [← h.map_position_filter, hs]

theorem Yields.unites (h : r.Yields vs c) {number : Int} {s : SuperVertex} {t : Tensor}
    (hs : s ∈ SuperVertex.ofVertices vs)
    (hmembers : s.members.map (·.position) = r.verticesOf number)
    (hjoins : s.Joins c.vertexIndices t) : t.Unites r number c.vertexIndices := by
  have hoperator : ∀ v ∈ s.members, ∃ o, r.vertices[v.position]? = some o ∧
      v.name = o.name ∧ v.transposed = o.transposed ∧ o.signatures = [v.signature] := by
    intro v hv
    rw [SuperVertex.members_eq_filter hs] at hv
    obtain ⟨_, o, -, ho, hw⟩ := h.hasVertices.exists_operator (List.mem_of_mem_filter hv)
    exact ⟨o, ho, hw.name_eq, hw.transposed_eq, hw.signatures_eq⟩
  refine ⟨?_, fun i hi o ho => ?_, ?_⟩
  · rw [← hmembers, List.forall₂_map_left_iff]
    refine ((List.forall₂_and_left _ _).mpr ⟨fun _ hv => hv, hjoins.groups⟩).imp ?_
    rintro v g ⟨hv, hg⟩
    obtain ⟨o, ho, -, -, hsignatures⟩ := hoperator v hv
    exact ⟨o, v.signature, ho, hsignatures, hg⟩
  · rw [← hmembers] at hi
    obtain ⟨v, hv, rfl⟩ := List.mem_map.mp hi
    obtain ⟨o', ho', hname, -, -⟩ := hoperator v hv
    obtain rfl : o' = o := Option.some.inj (ho'.symm.trans ho)
    rw [← hname, hjoins.name_eq]
    rcases List.mem_cons.mp hv with rfl | hv
    · rfl
    · exact hjoins.agree v hv
  · obtain ⟨o, ho, -, htransposed, -⟩ := hoperator s.first List.mem_cons_self
    refine ⟨s.first.position, ?_, o, ho, ?_⟩
    · rw [← hmembers]
      rfl
    · rw [hjoins.transposed_eq, htransposed]

/-- Each tensor unites the operators of a number. -/
theorem Yields.forall₂_unites (h : r.Yields vs c) :
    List.Forall₂ (fun number t => t.Unites r number c.vertexIndices) (writtenNumbers vs)
      c.tensors := by
  refine Check.forall₂_of_forall₂_left (R := fun s number => s ∈ SuperVertex.ofVertices vs ∧
    s.members.map (·.position) = r.verticesOf number) ?_ ?_ h.tensors
  · rintro s number t ⟨hs, hmembers⟩ hjoins
    exact h.unites hs hmembers hjoins
  · exact (List.forall₂_and_left _ _).mpr ⟨fun _ hs => hs, h.hasVertices.superVertices_members.flip⟩

/-- Each position is that of an operator of one number. -/
theorem Yields.flatMap_verticesOf_perm (h : r.Yields vs c) :
    ((writtenNumbers vs).flatMap r.verticesOf).Perm (List.range r.vertices.length) := by
  refine List.Perm.trans (.of_eq ?_) h.flatMap_members_position_perm
  rw [List.map_flatMap, List.flatMap_def, List.flatMap_def]
  exact congrArg _ (Check.map_eq_of_forall₂ (fun _ _ hs => hs.symm)
    h.hasVertices.superVertices_members)

end Record

namespace Contraction

/-- **The tensors of an accepted record are its super-vertices**: there is one for each number
that occurs, by ascending number, as many as the record declares, each position is that of an
operator of one of them and of no other, and their operators are the runs of the sorted
positions. -/
theorem tensors_unite {r : Record} {c : Contraction} (h : ofRecord r = .ok c) :
    ∃ numbers : List Int, numbers.Pairwise (· < ·) ∧
      (∀ number, number ∈ numbers ↔ number ∈ r.superVertices) ∧
      List.Forall₂ (fun number t => t.Unites r number c.vertexIndices) numbers c.tensors ∧
      (c.tensors.length : Int) = r.operatorCount ∧
      (numbers.flatMap r.verticesOf).Perm (List.range r.vertices.length) ∧
      numbers.map r.verticesOf = r.runsOfVertices := by
  obtain ⟨vs, hy⟩ := ofRecord_eq_ok_iff.mp h
  have hlt := Record.writtenNumbers_pairwise vs
  have hmem (number : Int) : number ∈ Record.writtenNumbers vs ↔ number ∈ r.superVertices :=
    hy.hasVertices.mem_writtenNumbers
  have hperm := hy.flatMap_verticesOf_perm
  refine ⟨_, hlt, hmem, hy.forall₂_unites, ?_, hperm, ?_⟩
  · rw [← hy.tensors.length_eq, hy.operatorCount_eq]
  · exact Record.map_verticesOf_eq_runsOfVertices hy.hasVertices.length_eq hlt
      (fun number => (hmem number).mp) hperm

theorem crossing_tensors_unite :
    ofRecord crossing = .ok crossingContraction ∧
      ∃ numbers : List Int, numbers.Pairwise (· < ·) ∧
        (∀ number, number ∈ numbers ↔ number ∈ crossing.superVertices) ∧
        List.Forall₂ (fun number t => t.Unites crossing number crossingContraction.vertexIndices)
          numbers crossingContraction.tensors ∧
        (crossingContraction.tensors.length : Int) = crossing.operatorCount ∧
        (numbers.flatMap crossing.verticesOf).Perm (List.range crossing.vertices.length) ∧
        numbers.map crossing.verticesOf = crossing.runsOfVertices :=
  ⟨ofRecord_crossing, tensors_unite ofRecord_crossing⟩

end Contraction
end TensorContraction
