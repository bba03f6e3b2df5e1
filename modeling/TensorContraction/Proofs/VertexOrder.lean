import Mathlib.GroupTheory.Perm.Finite
import TensorContraction.Proofs.Appearance
import TensorContraction.Proofs.OriginPattern
import TensorContraction.Proofs.Placement
import TensorContraction.Proofs.Renumbering

/-!
# The order of vertices

A record numbers its vertices, and rows and arcs refer to them by number.  Listing the vertices
in another order, with the numbers changed accordingly, says the same as long as the vertices of
one super-vertex keep their order, which is that of the groups of a tensor.  No group and no
origin knows the number of a vertex, so nothing that is made of the contraction shows it.

## Main definitions

* `rearrange` — a list with its entries moved.
* `Record.permuteVertices`, `Contraction.permuteVertices` — vertices in another order.
* `Record.PermutesVertices` — an order that keeps the vertices of a super-vertex in order.

## Main results

* `Record.HasVertices.ofVertices_permute` — the super-vertices are the old ones, with their vertices
  moved.
* `Contraction.ofRecord_permuteVertices` — the record yields the old contraction, with its
  vertices moved.
* `Contraction.exists_ofRecord_permuteVertices` — its texts and its antisymmetrizers are the
  same.
-/

namespace TensorContraction

/-! ### Moving the entries of a list -/

section Rearrange

variable {α β : Type} {σ : Equiv.Perm Nat} {xs : List α} {ys : List β}

/-- A list with its entries moved: the one at position `i` goes to `σ i`. -/
def rearrange (σ : Equiv.Perm Nat) (xs : List α) : List α :=
  (List.range xs.length).filterMap fun j => xs[σ.symm j]?

theorem symm_lt {n : Nat} (hσ : ∀ i < n, σ i < n) {j : Nat} (hj : j < n) : σ.symm j < n := by
  rw [← Finset.mem_range] at hj ⊢
  refine Equiv.Perm.perm_symm_on_of_perm_on_finset (fun i hi => ?_) hj
  rw [Finset.mem_range] at hi ⊢
  exact hσ i hi

/-- No entry is lost. -/
theorem map_some_rearrange (hσ : ∀ i < xs.length, σ i < xs.length) :
    (rearrange σ xs).map some = (List.range xs.length).map fun j => xs[σ.symm j]? := by
  rw [rearrange, List.map_filterMap_some_eq_filter_map_isSome, List.filter_eq_self,
    List.forall_mem_map]
  intro j hj
  rw [List.getElem?_eq_getElem (symm_lt hσ (List.mem_range.mp hj)), Option.isSome_some]

theorem length_rearrange (hσ : ∀ i < xs.length, σ i < xs.length) :
    (rearrange σ xs).length = xs.length := by
  have h := congrArg List.length (map_some_rearrange hσ)
  rwa [List.length_map, List.length_map, List.length_range] at h

theorem getElem?_rearrange (hσ : ∀ i < xs.length, σ i < xs.length) (j : Nat) :
    (rearrange σ xs)[j]? = xs[σ.symm j]? := by
  by_cases hj : j < xs.length
  · have h := congrArg (·[j]?) (map_some_rearrange hσ)
    simp only [List.getElem?_map, List.getElem?_range hj, Option.map_some] at h
    obtain ⟨x, hx, hxj⟩ := Option.map_eq_some_iff.mp h
    rw [hx, hxj]
  · have hback : ¬ σ.symm j < xs.length := fun h => hj (by simpa using hσ _ h)
    rw [List.getElem?_eq_none (by rw [length_rearrange hσ]; omega),
      List.getElem?_eq_none (by omega)]

theorem rearrange_refl (xs : List α) : rearrange (Equiv.refl Nat) xs = xs :=
  List.ext_getElem? fun j => getElem?_rearrange (σ := Equiv.refl Nat) (fun _ hi => hi) j

/-- **The entries are the same.** -/
theorem rearrange_perm (hσ : ∀ i < xs.length, σ i < xs.length) : (rearrange σ xs).Perm xs := by
  have hpositions : ((List.range xs.length).map σ.symm).Perm (List.range xs.length) := by
    rw [List.perm_ext_iff_of_nodup (List.nodup_range.map σ.symm.injective) List.nodup_range]
    intro i
    rw [List.mem_map, List.mem_range]
    constructor
    · rintro ⟨j, hj, rfl⟩
      exact symm_lt hσ (List.mem_range.mp hj)
    · intro hi
      exact ⟨σ i, List.mem_range.mpr (hσ i hi), σ.symm_apply_apply i⟩
  have hentries := hpositions.filterMap fun i => xs[i]?
  rw [List.filterMap_map] at hentries
  have hall : (List.range xs.length).filterMap (fun i => xs[i]?) = xs := rearrange_refl xs
  rwa [hall] at hentries

theorem rearrange_zip (hσ : ∀ i < xs.length, σ i < xs.length) (hlen : xs.length = ys.length) :
    rearrange σ (xs.zip ys) = (rearrange σ xs).zip (rearrange σ ys) := by
  refine List.ext_getElem? fun j => Option.ext fun p => ?_
  rw [getElem?_rearrange (by rwa [List.length_zip, ← hlen, Nat.min_self]),
    List.getElem?_zip_eq_some, List.getElem?_zip_eq_some, getElem?_rearrange hσ,
    getElem?_rearrange (hlen ▸ hσ)]

theorem zipIdx_rearrange (hσ : ∀ i < xs.length, σ i < xs.length) :
    (rearrange σ xs).zipIdx = rearrange σ (xs.zipIdx.map fun p => (p.1, σ p.2)) := by
  refine List.ext_getElem? fun j => ?_
  rw [getElem?_rearrange (by rwa [List.length_map, List.length_zipIdx]), List.getElem?_zipIdx,
    getElem?_rearrange hσ, List.getElem?_map, List.getElem?_zipIdx, Option.map_map]
  simp [Function.comp_def]

theorem forall₂_rearrange {R : α → β → Prop} (hσ : ∀ i < xs.length, σ i < xs.length)
    (h : List.Forall₂ R xs ys) : List.Forall₂ R (rearrange σ xs) (rearrange σ ys) := by
  obtain ⟨hlen, hzip⟩ := List.forall₂_iff_zip.mp h
  refine List.forall₂_iff_zip.mpr ⟨?_, fun hab => hzip ?_⟩
  · rw [length_rearrange hσ, length_rearrange (hlen ▸ hσ), hlen]
  · rw [← rearrange_zip hσ hlen] at hab
    refine (rearrange_perm ?_).mem_iff.mp hab
    rwa [List.length_zip, ← hlen, Nat.min_self]

end Rearrange

/-! ### Vertices in another order -/

/-- The number of a vertex that has been moved. -/
def movedNumber (σ : Equiv.Perm Nat) (number : Int) : Int := σ (number - 1).toNat + 1

/-- A row on a vertex that has been moved. -/
def VertexRow.move (σ : Equiv.Perm Nat) (row : VertexRow) : VertexRow :=
  { row with vertex := movedNumber σ row.vertex }

/-- An index on a vertex that has been moved. -/
def Index.move (σ : Equiv.Perm Nat) (x : Index) : Index := { x with vertex := σ x.vertex }

/-- A vertex that has been moved. -/
def Vertex.move (σ : Equiv.Perm Nat) (v : Vertex) : Vertex := { v with position := σ v.position }

/-- A line with other ends. -/
def Arc.mapEnds {α : Type} (f g : α → α) (a : Arc α) : Arc α := ⟨f a.first, g a.second, a.spaces⟩

/-- A record with its vertices in another order and rows that name them accordingly.  Arcs name
them accordingly as well, or are left alone; the second end of an external arc is no vertex. -/
def Record.permuteVertices (σ : Equiv.Perm Nat) (arcs : Bool) (r : Record) : Record :=
  { r with
    superVertices := rearrange σ r.superVertices
    vertices := rearrange σ r.vertices
    arcs := if arcs then r.arcs.map (Arc.mapEnds (movedNumber σ) (movedNumber σ)) else r.arcs
    externalArcs := if arcs then r.externalArcs.map (Arc.mapEnds (movedNumber σ) fun slot => slot)
      else r.externalArcs
    vertexRows := r.vertexRows.map (VertexRow.move σ) }

/-- A contraction with its vertices in another order. -/
def Contraction.permuteVertices (σ : Equiv.Perm Nat) (arcs : Bool) (c : Contraction) :
    Contraction :=
  { c with
    tensors := c.tensors.map (Tensor.map (Index.move σ))
    superVertices := rearrange σ c.superVertices
    arcs := if arcs then c.arcs.map (Arc.mapEnds σ σ) else c.arcs
    externalArcs := if arcs then c.externalArcs.map (Arc.mapEnds σ fun slot => slot) else c.externalArcs
    vertexIndices := c.vertexIndices.map (Index.move σ) }

/-- An order of the vertices in which those of one super-vertex keep theirs. -/
structure Record.PermutesVertices (r : Record) (σ : Equiv.Perm Nat) : Prop where
  /-- The vertices change places among themselves. -/
  lt : ∀ i < r.vertices.length, σ i < r.vertices.length
  /-- Of two vertices of one super-vertex the earlier stays the earlier. -/
  lt_of_lt : ∀ j < r.superVertices.length, ∀ i < j, r.superVertices[i]? = r.superVertices[j]? →
    σ i < σ j

theorem Index.keepsPlaces_move (σ : Equiv.Perm Nat) : Index.KeepsPlaces (Index.move σ) σ :=
  ⟨fun _ => rfl, fun _ => rfl, fun _ => rfl, σ.injective⟩

/-! ### Numbers -/

section Numbers

variable {σ : Equiv.Perm Nat}

theorem movedNumber_succ (σ : Equiv.Perm Nat) (n : Nat) :
    movedNumber σ ((n : Int) + 1) = (σ n : Int) + 1 := by
  have hn : ((n : Int) + 1 - 1).toNat = n := by omega
  rw [movedNumber, hn]

theorem VertexRow.Writes.move {row : VertexRow} {x : Index} (h : row.Writes x) :
    (row.move σ).Writes (x.move σ) := by
  obtain ⟨harc, hid, hspace, hvertex, hrole⟩ := h
  refine ⟨harc, hid, hspace, ?_, hrole⟩
  show movedNumber σ row.vertex = (σ x.vertex : Int) + 1
  rw [hvertex, movedNumber_succ]

theorem Arc.WrittenAs.mapEnds {w : Arc Int} {a : Arc Nat} (h : a.WrittenAs w)
    {f g : Int → Int} {f' g' : Nat → Nat} (hf : ∀ n : Nat, f ((n : Int) + 1) = (f' n : Int) + 1)
    (hg : ∀ n : Nat, g ((n : Int) + 1) = (g' n : Int) + 1) :
    (a.mapEnds f' g').WrittenAs (w.mapEnds f g) where
  first_eq := (congrArg f h.first_eq).trans (hf a.first)
  second_eq := (congrArg g h.second_eq).trans (hg a.second)
  spaces_eq := h.spaces_eq

end Numbers

/-! ### Super-vertices -/

namespace Record

variable {r : Record} {vs : List Vertex} {c : Contraction} {σ : Equiv.Perm Nat} {arcs : Bool}

theorem PermutesVertices.lt_superVertices (hσ : r.PermutesVertices σ) (h : r.HasVertices vs) :
    ∀ i < r.superVertices.length, σ i < r.superVertices.length := by
  rw [h.length_eq]
  exact hσ.lt

theorem HasVertices.permute (h : r.HasVertices vs) (hσ : r.PermutesVertices σ) (arcs : Bool) :
    (r.permuteVertices σ arcs).HasVertices (rearrange σ (vs.map (Vertex.move σ))) where
  length_eq := by
    show (rearrange σ r.superVertices).length = (rearrange σ r.vertices).length
    rw [length_rearrange (hσ.lt_superVertices h), length_rearrange hσ.lt, h.length_eq]
  vertices := by
    have hlt := hσ.lt_superVertices h
    have hzip : (r.superVertices.zip r.vertices).length = r.superVertices.length := by
      rw [List.length_zip, ← h.length_eq, Nat.min_self]
    show List.Forall₂ _ ((rearrange σ r.superVertices).zip (rearrange σ r.vertices)).zipIdx _
    rw [← rearrange_zip hlt h.length_eq, zipIdx_rearrange (by rwa [hzip])]
    apply forall₂_rearrange
    · rwa [List.length_map, List.length_zipIdx, hzip]
    · exact Check.forall₂_map h.vertices fun p _ v hv =>
        ⟨congrArg σ hv.position_eq, hv.superVertex_eq, hv.name_eq, hv.transposed_eq,
          hv.signatures_eq⟩

/-- The vertices are the same, moved. -/
theorem HasVertices.rearrange_perm (h : r.HasVertices vs) (hσ : r.PermutesVertices σ) :
    (rearrange σ (vs.map (Vertex.move σ))).Perm (vs.map (Vertex.move σ)) := by
  apply TensorContraction.rearrange_perm
  rw [List.length_map, h.length_vertices]
  exact hσ.lt

/-- Of two vertices of one super-vertex the earlier stays the earlier. -/
theorem PermutesVertices.position_lt (hσ : r.PermutesVertices σ) (h : r.HasVertices vs)
    {v w : Vertex} (hv : v ∈ vs) (hw : w ∈ vs) (hnumber : v.superVertex = w.superVertex)
    (hlt : v.position < w.position) : σ v.position < σ w.position := by
  obtain ⟨s, _, hs, -, hsv⟩ := h.exists_operator hv
  obtain ⟨t, _, ht, -, htw⟩ := h.exists_operator hw
  have hst : s = t := by rw [hsv.superVertex_eq, htw.superVertex_eq, hnumber]
  have hlength := (List.getElem?_eq_some_iff.mp ht).1
  exact hσ.lt_of_lt _ hlength _ hlt (by rw [hs, ht, hst])

/-- The super-vertices are the old ones with their vertices moved. -/
theorem HasVertices.ofVertices_permute (h : r.HasVertices vs) (hσ : r.PermutesVertices σ) :
    SuperVertex.ofVertices (rearrange σ (vs.map (Vertex.move σ))) =
      (SuperVertex.ofVertices vs).map (SuperVertex.map (Vertex.move σ)) := by
  refine SuperVertex.ofVertices_eq_map fun n => ?_
  -- either side holds the vertices of the super-vertex, moved
  have hperm : ((rearrange σ (vs.map (Vertex.move σ))).filter (·.superVertex == n)).Perm
      ((vs.filter (·.superVertex == n)).map (Vertex.move σ)) := by
    refine ((h.rearrange_perm hσ).filter _).trans (.of_eq ?_)
    rw [List.filter_map]
    rfl
  -- and lists them by position
  have hleft := (h.permute hσ false).pairwise_position.filter (·.superVertex == n)
  have hright : ((vs.filter (·.superVertex == n)).map (Vertex.move σ)).Pairwise fun v w =>
      v.position < w.position := by
    refine List.pairwise_map.mpr ((h.pairwise_position.filter _).imp_of_mem ?_)
    intro v w hv hw hlt
    rw [List.mem_filter, beq_iff_eq] at hv hw
    exact hσ.position_lt h hv.1 hw.1 (hv.2.trans hw.2.symm) hlt
  refine hperm.eq_of_pairwise ?_ hleft hright
  intro v w _ _ hvw hwv
  omega

end Record

theorem SuperVertex.Joins.move {s : SuperVertex} {pool : List Index} {t : Tensor}
    {σ : Equiv.Perm Nat} (h : s.Joins pool t) :
    (s.map (Vertex.move σ)).Joins (pool.map (Index.move σ)) (t.map (Index.move σ)) where
  agree := List.forall_mem_map.mpr h.agree
  name_eq := h.name_eq
  transposed_eq := h.transposed_eq
  groups := by
    show List.Forall₂ _ (s.members.map (Vertex.move σ)) (t.groups.map (Ladder.map (Index.move σ)))
    rw [List.forall₂_map_left_iff, List.forall₂_map_right_iff]
    exact h.groups.imp fun _ _ hg => hg.map (Index.keepsPlaces_move σ)

/-! ### Contractions -/

namespace Record

variable {r : Record} {vs : List Vertex} {c : Contraction} {σ : Equiv.Perm Nat} {arcs : Bool}

theorem Yields.permute (hy : r.Yields vs c) (hσ : r.PermutesVertices σ) :
    (r.permuteVertices σ arcs).Yields (rearrange σ (vs.map (Vertex.move σ)))
      (c.permuteVertices σ arcs) := by
  have hvs := hy.hasVertices
  have hlt := hσ.lt
  have hlt' := hσ.lt_superVertices hvs
  have hsupers := hvs.ofVertices_permute hσ
  have hperm := hvs.rearrange_perm hσ
  exact {
    id_eq := hy.id_eq
    vertexCount_eq := hy.vertexCount_eq.trans (congrArg _ (length_rearrange hlt).symm)
    superVertexCount_eq :=
      hy.superVertexCount_eq.trans (congrArg _ (length_rearrange hlt').symm)
    arcCount_eq := by
      cases arcs with
      | false => exact hy.arcCount_eq
      | true => exact hy.arcCount_eq.trans (congrArg _ (List.length_map _).symm)
    externalArcCount_eq := by
      cases arcs with
      | false => exact hy.externalArcCount_eq
      | true => exact hy.externalArcCount_eq.trans (congrArg _ (List.length_map _).symm)
    superVertices := forall₂_rearrange hlt' hy.superVertices
    arcs := by
      cases arcs with
      | false => exact hy.arcs
      | true => exact Check.forall₂_map hy.arcs fun _ _ _ ha =>
        ha.mapEnds (movedNumber_succ σ) (movedNumber_succ σ)
    externalArcs := by
      cases arcs with
      | false => exact hy.externalArcs
      | true => exact Check.forall₂_map hy.externalArcs fun _ _ _ ha =>
        ha.mapEnds (movedNumber_succ σ) fun _ => rfl
    vertexIndices := Check.forall₂_map hy.vertexIndices fun _ _ _ h => h.move
    externalIndices := hy.externalIndices
    vertices := (hvs.permute hσ arcs).vertices
    vertexPlaces := by
      rw [(hperm.flatMap_right _).length_eq, List.flatMap_map]
      exact hy.vertexPlaces.trans (List.length_map _).symm
    operatorCount_eq := by
      rw [hsupers, List.length_map]
      exact hy.operatorCount_eq
    tensors := by
      rw [hsupers]
      exact List.forall₂_map_left_iff.mpr (List.forall₂_map_right_iff.mpr
        (hy.tensors.imp fun _ _ ht => ht.move))
    resultPlaces := hy.resultPlaces
    resultGroups := hy.resultGroups
    resultName_eq := hy.resultName_eq
    resultTransposed_eq := hy.resultTransposed_eq
    factor_eq := hy.factor_eq }

end Record

/-- Marks are all that is shown of indices. -/
theorem Tensor.LooksLike.map {φ : Index → Index} (h : ∀ x, (φ x).mark = x.mark) (t : Tensor) :
    (t.map φ).LooksLike t := by
  have hmark (on : Group → List Index) (hon : ∀ g : Group, on (g.map φ) = (on g).map φ) :
      ((t.map φ).groups.flatMap on).map Index.mark = (t.groups.flatMap on).map Index.mark := by
    rw [Tensor.map, List.flatMap_map, List.map_flatMap, List.map_flatMap]
    refine List.flatMap_congr fun g _ => ?_
    rw [hon, List.map_map]
    exact List.map_congr_left fun x _ => h x
  exact ⟨rfl, hmark _ fun _ => rfl, hmark _ fun _ => rfl⟩

namespace Contraction

variable {r : Record} {c : Contraction} {σ : Equiv.Perm Nat}

/-- **A record with its vertices in another order yields the old contraction with its vertices
moved.** -/
theorem ofRecord_permuteVertices (hr : ofRecord r = .ok c) (hσ : r.PermutesVertices σ)
    (arcs : Bool) : ofRecord (r.permuteVertices σ arcs) = .ok (c.permuteVertices σ arcs) := by
  obtain ⟨vs, hy⟩ := ofRecord_eq_ok_iff.mp hr
  exact ofRecord_eq_ok_iff.mpr ⟨_, hy.permute hσ⟩

/-! ### What does not show vertices -/

/-- Neither names nor marks know of vertices. -/
theorem permuteVertices_looksLike (σ : Equiv.Perm Nat) (arcs : Bool) (c : Contraction) :
    (c.permuteVertices σ arcs).LooksLike c where
  factor_eq := rfl
  result := .refl _
  tensors := Tensor.forall₂_looksLike_map (Tensor.LooksLike.map (φ := Index.move σ) fun _ => rfl)
    c.tensors

/-- Nor do origins. -/
theorem ofContraction_permuteVertices (σ : Equiv.Perm Nat) (arcs : Bool) (c : Contraction) :
    Symmetrization.ofContraction (c.permuteVertices σ arcs) = Symmetrization.ofContraction c := by
  refine Symmetrization.ofContraction_congr rfl rfl (.of_table_eq ?_ _)
  refine (Origin.table_map (φ := Index.move σ) (κ := fun k => k) (fun _ => rfl) c.tensors).trans ?_
  exact List.map_id _

/-- **The order of vertices shows nowhere.**  A record with its vertices in another order is
accepted if the record is, and it has the same line of TeX, the same antisymmetrizers or the same
reason not to have any, and the same text for SeQuant. -/
theorem exists_ofRecord_permuteVertices (hr : ofRecord r = .ok c) (hσ : r.PermutesVertices σ)
    (arcs : Bool) :
    ∃ c', ofRecord (r.permuteVertices σ arcs) = .ok c' ∧ Tex.line c' = Tex.line c ∧
      Symmetrization.ofContraction c' = Symmetrization.ofContraction c ∧
      (fun t => Sequant.document [t]) <$> Term.ofContraction c' =
        (fun t => Sequant.document [t]) <$> Term.ofContraction c := by
  have hlooks := permuteVertices_looksLike σ arcs c
  have hfound := ofContraction_permuteVertices σ arcs c
  refine ⟨_, ofRecord_permuteVertices hr hσ arcs, hlooks.line_eq, hfound, ?_⟩
  rw [Term.ofContraction, Term.ofContraction, hfound]
  cases Symmetrization.ofContraction c with
  | error e => rfl
  | ok s => exact congrArg Except.ok (hlooks.document_eq s)

theorem crossing_permutesVertices : crossing.PermutesVertices (Equiv.swap 0 1) :=
  ⟨by decide, by decide⟩

theorem exists_ofRecord_crossing_permuted :
    ofRecord crossing = .ok crossingContraction ∧ crossing.PermutesVertices (Equiv.swap 0 1) ∧
      ∃ c', ofRecord (crossing.permuteVertices (Equiv.swap 0 1) true) = .ok c' ∧
        Tex.line c' = Tex.line crossingContraction ∧
        Symmetrization.ofContraction c' = Symmetrization.ofContraction crossingContraction ∧
        (fun t => Sequant.document [t]) <$> Term.ofContraction c' =
          (fun t => Sequant.document [t]) <$> Term.ofContraction crossingContraction :=
  ⟨ofRecord_crossing, crossing_permutesVertices,
    exists_ofRecord_permuteVertices ofRecord_crossing crossing_permutesVertices true⟩

end Contraction
end TensorContraction
