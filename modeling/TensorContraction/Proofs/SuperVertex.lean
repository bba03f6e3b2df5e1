import TensorContraction.Proofs.Ascending
import TensorContraction.Proofs.Distribution

/-!
# Super-vertices

The vertices of a product are sorted into super-vertices by the number each carries.
Every vertex belongs to one super-vertex, and the super-vertices come by ascending
number.  A super-vertex becomes a tensor if its vertices agree on the name of the
operator and each of them finds its indices.

## Main definitions

* `SuperVertex.Joins` — a tensor joins the vertices of a super-vertex.

## Main results

* `SuperVertex.ofVertices_map_members` — the members of each super-vertex.
* `SuperVertex.flatMap_members_perm` — each vertex is a member of exactly one.
* `SuperVertex.others_agree_iff` — when the names agree.
* `SuperVertex.tensor_eq_ok_iff` — the tensor of a super-vertex joins its vertices.
-/

namespace TensorContraction.SuperVertex

variable {vs : List Vertex}

/-- The vertices of each super-vertex are those with its number, in order. -/
theorem ofVertices_map_members (vs : List Vertex) :
    (ofVertices vs).map members =
      (Ascending.ofList (vs.map (·.superVertex))).map fun n =>
        vs.filter (·.superVertex == n) := by
  unfold ofVertices
  rw [List.map_filterMap]
  generalize hkeys : Ascending.ofList (vs.map (·.superVertex)) = keys
  refine (List.filterMap_congr fun n hn => ?_).trans
    (congrFun (List.filterMap_eq_map (f := fun n => vs.filter (·.superVertex == n))) keys)
  -- a number that occurs has a vertex
  obtain ⟨v, hv, hvn⟩ := List.mem_map.mp (Ascending.mem_ofList.mp (hkeys ▸ hn))
  have hmem : v ∈ vs.filter (·.superVertex == n) := List.mem_filter.mpr ⟨hv, by simpa using hvn⟩
  cases h : vs.filter (·.superVertex == n) with
  | nil => rw [h] at hmem; exact absurd hmem List.not_mem_nil
  | cons first others => simp [h, members]

theorem length_ofVertices (vs : List Vertex) :
    (ofVertices vs).length = (vs.map (·.superVertex)).toFinset.card := by
  have h := congrArg List.length (ofVertices_map_members vs)
  rwa [List.length_map, List.length_map, Ascending.length_ofList] at h

/-- A super-vertex with something done to each vertex. -/
def map (f : Vertex → Vertex) (s : SuperVertex) : SuperVertex := ⟨f s.first, s.others.map f⟩

/-- The super-vertex of some members, if there are any. -/
def ofMembers? : List Vertex → Option SuperVertex
  | [] => none
  | first :: others => some ⟨first, others⟩

theorem ofMembers?_map (f : Vertex → Vertex) (vs : List Vertex) :
    ofMembers? (vs.map f) = (ofMembers? vs).map (map f) := by
  cases vs with
  | nil => rfl
  | cons first others => rfl

theorem ofVertices_eq (vs : List Vertex) :
    ofVertices vs = (Ascending.ofList (vs.map (·.superVertex))).filterMap fun n =>
      ofMembers? (vs.filter (·.superVertex == n)) := rfl

theorem mem_numbers_iff {n : Nat} :
    n ∈ vs.map (·.superVertex) ↔ vs.filter (·.superVertex == n) ≠ [] := by
  rw [List.mem_map, ne_eq, List.filter_eq_nil_iff]
  push Not
  simp only [beq_iff_eq]

/-- Super-vertices are known by their members. -/
theorem ofVertices_eq_map {f : Vertex → Vertex} {vs' : List Vertex}
    (h : ∀ n, vs'.filter (·.superVertex == n) = (vs.filter (·.superVertex == n)).map f) :
    ofVertices vs' = (ofVertices vs).map (map f) := by
  have hkeys : Ascending.ofList (vs'.map (·.superVertex)) =
      Ascending.ofList (vs.map (·.superVertex)) := by
    rw [Ascending.ofList_eq_ofList_iff]
    intro n
    rw [mem_numbers_iff, mem_numbers_iff, h, ne_eq, List.map_eq_nil_iff]
  rw [ofVertices_eq, ofVertices_eq, hkeys, List.map_filterMap]
  simp only [h, ofMembers?_map]

/-- What leaves the numbers of super-vertices alone can be done before the vertices are
sorted or after. -/
theorem ofVertices_map {f : Vertex → Vertex} (hf : ∀ v, (f v).superVertex = v.superVertex)
    (vs : List Vertex) : ofVertices (vs.map f) = (ofVertices vs).map (map f) := by
  refine ofVertices_eq_map fun n => ?_
  rw [List.filter_map]
  refine congrArg _ (List.filter_congr fun v _ => ?_)
  rw [Function.comp_apply, hf]

/-- Numbering super-vertices otherwise changes the order in which they come. -/
theorem ofVertices_perm_map {f : Vertex → Vertex} {ν : Nat → Nat}
    (hf : ∀ v, (f v).superVertex = ν v.superVertex)
    (hν : ∀ n ∈ vs.map (·.superVertex), ∀ m ∈ vs.map (·.superVertex), ν n = ν m → n = m) :
    (ofVertices (vs.map f)).Perm ((ofVertices vs).map (map f)) := by
  have hnumbers : (vs.map f).map (·.superVertex) = (vs.map (·.superVertex)).map ν := by
    rw [List.map_map, List.map_map]
    exact List.map_congr_left fun v _ => hf v
  -- each old number has its vertices still
  have hclass : ∀ n ∈ Ascending.ofList (vs.map (·.superVertex)),
      ofMembers? ((vs.map f).filter (·.superVertex == ν n)) =
        (ofMembers? (vs.filter (·.superVertex == n))).map (map f) := by
    intro n hn
    rw [← ofMembers?_map, List.filter_map]
    refine congrArg (fun ms => ofMembers? (ms.map f)) (List.filter_congr fun v hv => ?_)
    have hvn := hν v.superVertex (List.mem_map_of_mem hv) n (Ascending.mem_ofList.mp hn)
    rw [Function.comp_apply, hf, Bool.eq_iff_iff, beq_iff_eq, beq_iff_eq]
    exact ⟨hvn, congrArg ν⟩
  rw [ofVertices_eq, ofVertices_eq, hnumbers, List.map_filterMap, ← List.filterMap_congr hclass]
  refine ((Ascending.ofList_map_perm hν).filterMap _).trans (.of_eq ?_)
  rw [List.filterMap_map]
  rfl

/-- **Each vertex is a member of exactly one super-vertex.** -/
theorem flatMap_members_perm (vs : List Vertex) : ((ofVertices vs).flatMap members).Perm vs := by
  have hnodup := Ascending.nodup_of_pairwise (Ascending.ofList_pairwise (vs.map (·.superVertex)))
  rw [List.flatMap_def, ofVertices_map_members, ← List.flatMap_def]
  refine (flatMap_filter_perm (·.superVertex) hnodup vs).trans (List.Perm.of_eq ?_)
  rw [List.filter_eq_self]
  intro v hv
  rw [decide_eq_true_eq, Ascending.mem_ofList]
  exact List.mem_map_of_mem hv

theorem members_eq_filter {s : SuperVertex} (hs : s ∈ ofVertices vs) :
    s.members = vs.filter (·.superVertex == s.first.superVertex) := by
  have hmem : s.members ∈ (ofVertices vs).map members := List.mem_map_of_mem hs
  rw [ofVertices_map_members] at hmem
  obtain ⟨n, -, hn⟩ := List.mem_map.mp hmem
  have hfirst : s.first ∈ vs.filter (·.superVertex == n) := hn ▸ List.mem_cons_self
  have : s.first.superVertex = n := by simpa using List.of_mem_filter hfirst
  rw [this, hn]

theorem exists_mem_members {v : Vertex} (hv : v ∈ vs) : ∃ s ∈ ofVertices vs, v ∈ s.members :=
  List.mem_flatMap.mp ((flatMap_members_perm vs).mem_iff.mpr hv)

/-- Names agree within super-vertices exactly if vertices of one number have one name. -/
theorem others_agree_iff :
    (∀ s ∈ ofVertices vs, ∀ v ∈ s.others, v.name = s.first.name) ↔
      ∀ v ∈ vs, ∀ w ∈ vs, v.superVertex = w.superVertex → v.name = w.name := by
  constructor
  · intro h v hv w hw hvw
    obtain ⟨s, hs, hvs⟩ := exists_mem_members hv
    have hname : ∀ u ∈ s.members, u.name = s.first.name := by
      intro u hu
      rcases List.mem_cons.mp hu with rfl | hu
      · rfl
      · exact h s hs u hu
    have hws : w ∈ s.members := by
      rw [members_eq_filter hs, List.mem_filter] at hvs ⊢
      exact ⟨hw, hvw ▸ hvs.2⟩
    rw [hname v hvs, hname w hws]
  · intro h s hs v hv
    have hmem : ∀ u ∈ s.members, u ∈ vs ∧ u.superVertex = s.first.superVertex := by
      intro u hu
      rw [members_eq_filter hs, List.mem_filter, beq_iff_eq] at hu
      exact hu
    obtain ⟨hv, hvn⟩ := hmem v (List.mem_cons_of_mem _ hv)
    exact h v hv s.first (hmem s.first List.mem_cons_self).1 hvn

/-- A tensor joins the vertices of a super-vertex, with what a pool holds for them. -/
structure Joins (s : SuperVertex) (pool : List Index) (t : Tensor) : Prop where
  /-- The vertices agree on the name of the operator. -/
  agree : ∀ v ∈ s.others, v.name = s.first.name
  /-- The tensor has that name. -/
  name_eq : t.name = s.first.name
  /-- It is transposed if the first vertex is. -/
  transposed_eq : t.transposed = s.first.transposed
  /-- It has one group for each vertex, in order. -/
  groups : List.Forall₂ (fun v g => Group.Carries g v.position v.signature pool)
    s.members t.groups

theorem tensor_eq_ok_iff {pool : List Index} {s : SuperVertex} {t : Tensor} :
    tensor pool s = .ok t ↔ s.Joins pool t := by
  unfold tensor
  split
  · next other hother =>
    refine iff_of_false (by simp) fun h => ?_
    have hne : other.name ≠ s.first.name := by simpa using List.find?_some hother
    exact hne (h.agree other (List.mem_of_find?_eq_some hother))
  · next hnone =>
    have hall : ∀ v ∈ s.others, v.name = s.first.name := by
      intro v hv
      simpa using List.find?_eq_none.mp hnone v hv
    simp only [Check.bind_eq_ok_iff, Check.pure_eq_ok_iff, Check.mapM_eq_ok_iff,
      Group.ofIndices_eq_ok_iff]
    constructor
    · intro h
      obtain ⟨groups, hgroups, rfl⟩ := h
      exact ⟨hall, rfl, rfl, hgroups⟩
    · intro h
      refine ⟨t.groups, h.groups, ?_⟩
      rw [← h.name_eq, ← h.transposed_eq]

theorem exists_joins_iff {pool : List Index} {s : SuperVertex} :
    (∃ t, s.Joins pool t) ↔ (∀ v ∈ s.others, v.name = s.first.name) ∧
      ∀ v ∈ s.members, ∃ g, Group.Carries g v.position v.signature pool := by
  rw [← Check.exists_forall₂_iff]
  constructor
  · intro h
    obtain ⟨t, h⟩ := h
    exact ⟨h.agree, t.groups, h.groups⟩
  · intro h
    obtain ⟨hagree, groups, hgroups⟩ := h
    exact ⟨⟨s.first.name, groups, s.first.transposed⟩, hagree, rfl, rfl, hgroups⟩

end TensorContraction.SuperVertex
