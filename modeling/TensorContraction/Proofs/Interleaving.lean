import TensorContraction.Proofs.Canonical

/-!
# The order of rows

A vertex finds its indices by their place and role and arranges them by space, and indices
of one space stay in the order of their rows.  So rows of one kind, that is, of one place,
role and space, must not be exchanged, but how rows of different kinds are interleaved does
not matter: neither to whether a record is accepted nor to its tensors.

## Main definitions

* `Interleaved` — lists that keep the order within each kind of entries.
* `Record.Interleaves` — records whose rows are interleaved otherwise.

## Main results

* `Group.Carries.interleave` — a place finds the same group.
* `Contraction.ofRecord_interleaves` — the record is accepted as before, with the same
  tensors.
-/

namespace TensorContraction

/-! ### Interleaved lists -/

section Interleaved

variable {α κ : Type} [DecidableEq κ] {kind : α → κ} {xs ys : List α}

/-- Lists in which the entries of each kind are the same and stand in the same order. -/
def Interleaved (kind : α → κ) (xs ys : List α) : Prop :=
  ∀ k, (xs.filter fun x => kind x = k) = ys.filter fun y => kind y = k

namespace Interleaved

theorem symm (h : Interleaved kind xs ys) : Interleaved kind ys xs := fun k => (h k).symm

theorem perm [DecidableEq α] (h : Interleaved kind xs ys) : xs.Perm ys := perm_of_filter_eq h

/-- Only the kinds that occur have to be compared. -/
theorem iff_forall_mem :
    Interleaved kind xs ys ↔
      ∀ k ∈ (xs ++ ys).map kind,
        (xs.filter fun x => kind x = k) = ys.filter fun y => kind y = k := by
  constructor
  · intro h k _
    exact h k
  · intro h k
    by_cases hk : k ∈ (xs ++ ys).map kind
    · exact h k hk
    · -- neither list has an entry of the kind
      have hnone (zs : List α) (hzs : ∀ z ∈ zs, z ∈ xs ++ ys) :
          (zs.filter fun z => kind z = k) = [] := by
        rw [List.filter_eq_nil_iff]
        intro z hz hzk
        exact hk (List.mem_map.mpr ⟨z, hzs z hz, by simpa using hzk⟩)
      rw [hnone xs fun z => List.mem_append_left _, hnone ys fun z => List.mem_append_right _]

instance [DecidableEq α] : Decidable (Interleaved kind xs ys) := decidable_of_iff' _ iff_forall_mem

/-- What stands against a list can be interleaved as the list is. -/
theorem exists_forall₂ {β : Type} [DecidableEq α] {W : α → β → Prop} {kind' : β → κ}
    (hunique : Relator.RightUnique W) (hkind : ∀ a b, W a b → kind a = kind' b)
    (h : Interleaved kind xs ys) {bs : List β} (hbs : List.Forall₂ W xs bs) :
    ∃ cs, List.Forall₂ W ys cs ∧ Interleaved kind' bs cs := by
  obtain ⟨cs, hcs⟩ : ∃ cs, List.Forall₂ W ys cs := by
    refine Check.exists_forall₂_iff.mpr fun y hy => ?_
    obtain ⟨b, -, hb⟩ := Check.exists_right_of_forall₂ hbs (h.perm.mem_iff.mpr hy)
    exact ⟨b, hb⟩
  refine ⟨cs, hcs, fun k => ?_⟩
  have hpick : Relator.LiftFun W Iff (fun a => decide (kind a = k))
      fun b => decide (kind' b = k) := by
    intro a b hab
    simp only [hkind a b hab]
  have hxs := List.rel_filter hpick hbs
  rw [h k] at hxs
  exact hunique.forall₂ hxs (List.rel_filter hpick hcs)

end Interleaved
end Interleaved

/-! ### Rows and indices -/

/-- The place, the role and the space of a row on a vertex. -/
def VertexRow.kind (row : VertexRow) : Int × Int × Int := (row.vertex, row.role, row.space)

/-- The slot, the role and the space of a row of the result. -/
def ResultRow.kind (row : ResultRow) : Int × Int × Int := (row.vertex, row.role, row.space)

/-- The place, the role and the space of an index, as they are written. -/
def Index.kind (x : Index) : Int × Int × Int := (x.vertex + 1, x.role.code, x.space.code)

theorem Index.WrittenAs.kind_eq {x : Index} {id space vertex role : Int}
    (h : x.WrittenAs id space vertex role) : (vertex, role, space) = x.kind := by
  rw [kind, h.vertex_eq, h.role_eq, h.space_eq]

theorem Interleaved.exists_vertexIndices {rows rows' : List VertexRow} {xs : List Index}
    (h : Interleaved VertexRow.kind rows rows') (hxs : List.Forall₂ VertexRow.Writes rows xs) :
    ∃ ys, List.Forall₂ VertexRow.Writes rows' ys ∧ Interleaved Index.kind xs ys :=
  h.exists_forall₂ (fun _ _ _ hx hy => hx.2.unique hy.2) (fun _ _ hx => hx.2.kind_eq) hxs

theorem Interleaved.exists_externalIndices {rows rows' : List ResultRow} {xs : List Index}
    (h : Interleaved ResultRow.kind rows rows') (hxs : List.Forall₂ ResultRow.Writes rows xs) :
    ∃ ys, List.Forall₂ ResultRow.Writes rows' ys ∧ Interleaved Index.kind xs ys :=
  h.exists_forall₂ (fun _ _ _ hx hy => hx.2.unique hy.2) (fun _ _ hx => hx.2.kind_eq) hxs

/-! ### Groups -/

section Groups

variable {xs ys : List Index}

/-- A place sees the indices of each space in the same order. -/
theorem Interleaved.ofSpace_held_eq (h : Interleaved Index.kind xs ys) (place : Nat) (role : Role)
    (s : Space) : ofSpace s (held xs place role) = ofSpace s (held ys place role) := by
  have hpick (zs : List Index) : ofSpace s (held zs place role) =
      zs.filter fun x => x.kind = ((place : Int) + 1, role.code, s.code) := by
    rw [ofSpace, held, List.filter_filter]
    refine List.filter_congr fun x _ => ?_
    have hvertex : (x.vertex : Int) + 1 = place + 1 ↔ x.vertex = place := by omega
    rw [Bool.eq_iff_iff, Bool.and_eq_true, Bool.and_eq_true, beq_iff_eq, beq_iff_eq, beq_iff_eq,
      decide_eq_true_iff, Index.kind, Prod.mk.injEq, Prod.mk.injEq, hvertex, Role.code_inj,
      Space.code_inj]
    tauto
  rw [hpick, hpick, h]

/-- **A place finds the same group.** -/
theorem Group.Carries.interleave {g : Group} {place : Nat} {signature : Signature}
    (hg : g.Carries place signature xs) (h : Interleaved Index.kind xs ys) :
    g.Carries place signature ys where
  perm role := (hg.perm role).trans (perm_of_ofSpace_eq (h.ofSpace_held_eq place role))
  spaces_eq := hg.spaces_eq
  stable role s := (hg.stable role s).trans (h.ofSpace_held_eq place role s)

theorem SuperVertex.Joins.interleave {s : SuperVertex} {t : Tensor} (hs : s.Joins xs t)
    (h : Interleaved Index.kind xs ys) : s.Joins ys t where
  agree := hs.agree
  name_eq := hs.name_eq
  transposed_eq := hs.transposed_eq
  groups := hs.groups.imp fun _ _ hg => hg.interleave h

end Groups

/-! ### Records -/

/-- Records that differ in how rows of different kinds are interleaved. -/
structure Record.Interleaves (r r' : Record) : Prop where
  /-- They differ in their rows at most. -/
  rest_eq : r' = { r with vertexRows := r'.vertexRows, resultRows := r'.resultRows }
  /-- Rows of one vertex, role and space stand in the same order. -/
  vertexRows : Interleaved VertexRow.kind r.vertexRows r'.vertexRows
  /-- Rows of one slot, role and space stand in the same order. -/
  resultRows : Interleaved ResultRow.kind r.resultRows r'.resultRows

namespace Record

variable {r r' : Record} {vs : List Vertex} {c : Contraction}

theorem Interleaves.symm (h : r.Interleaves r') : r'.Interleaves r where
  rest_eq := by rw [h.rest_eq]
  vertexRows := h.vertexRows.symm
  resultRows := h.resultRows.symm

/-- The same vertices yield the same contraction but for the order of its indices. -/
theorem Yields.interleave (hy : r.Yields vs c) (h : r.Interleaves r') :
    ∃ xs ys, r'.Yields vs { c with vertexIndices := xs, externalIndices := ys } ∧
      xs.Perm c.vertexIndices ∧ ys.Perm c.externalIndices := by
  obtain ⟨hrest, hvertex, hresult⟩ := h
  obtain ⟨xs, hxs, hcx⟩ := hvertex.exists_vertexIndices hy.vertexIndices
  obtain ⟨ys, hys, hcy⟩ := hresult.exists_externalIndices hy.externalIndices
  refine ⟨xs, ys, ?_, hcx.perm.symm, hcy.perm.symm⟩
  rw [hrest]
  exact { hy with
    vertexIndices := hxs
    externalIndices := hys
    vertexPlaces := hy.vertexPlaces.trans hcx.perm.length_eq
    tensors := hy.tensors.imp fun _ _ ht => ht.interleave hcx
    resultPlaces := hy.resultPlaces.trans hcy.perm.length_eq
    resultGroups := hy.resultGroups.imp fun _ _ hg => hg.interleave hcy }

end Record

namespace Contraction

variable {r r' : Record} {c : Contraction}

theorem exists_ofRecord_of_interleaves (h : r.Interleaves r') (hc : ofRecord r = .ok c) :
    ∃ c', ofRecord r' = .ok c' ∧ c'.result = c.result ∧ c'.tensors = c.tensors ∧
      c'.vertexIndices.Perm c.vertexIndices ∧ c'.externalIndices.Perm c.externalIndices := by
  obtain ⟨vs, hy⟩ := ofRecord_eq_ok_iff.mp hc
  obtain ⟨xs, ys, hy', hxs, hys⟩ := hy.interleave h
  exact ⟨_, ofRecord_eq_ok_iff.mpr ⟨vs, hy'⟩, rfl, rfl, hxs, hys⟩

/-- **How rows of different kinds are interleaved does not matter.**  The record is accepted
or not as before.  If it is, its result and its tensors are the same, and only the order in
which the contraction lists its indices is another. -/
theorem ofRecord_interleaves (h : r.Interleaves r') :
    ((∃ c, ofRecord r = .ok c) ↔ ∃ c', ofRecord r' = .ok c') ∧
      ∀ c c', ofRecord r = .ok c → ofRecord r' = .ok c' →
        c'.result = c.result ∧ c'.tensors = c.tensors ∧
          c'.vertexIndices.Perm c.vertexIndices ∧ c'.externalIndices.Perm c.externalIndices := by
  refine ⟨⟨?_, ?_⟩, ?_⟩
  · rintro ⟨c, hc⟩
    obtain ⟨c', hc', -⟩ := exists_ofRecord_of_interleaves h hc
    exact ⟨c', hc'⟩
  · rintro ⟨c', hc'⟩
    obtain ⟨c, hc, -⟩ := exists_ofRecord_of_interleaves h.symm hc'
    exact ⟨c, hc⟩
  · intro c c' hc hc'
    obtain ⟨d, hd, hall⟩ := exists_ofRecord_of_interleaves h hc
    obtain rfl : d = c' := Except.ok.inj (hd.symm.trans hc')
    exact hall

/-- One operator with two indices of a space, whose rows come before that of the other
space. -/
def sorted : Record where
  id := 1
  result := ⟨"R", false, [⟨[.virtual, .occupied, .occupied], []⟩]⟩
  factor := ⟨1, 1, 1⟩
  vertexCount := 1
  operatorCount := 1
  superVertices := [1]
  arcCount := 0
  externalArcCount := 0
  vertices := [⟨"T", false, [⟨[.occupied, .occupied, .virtual], []⟩]⟩]
  arcs := []
  externalArcs := []
  vertexRows := [⟨1, 1, 1, true, 1, 2⟩, ⟨1, 1, 1, true, 1, 1⟩, ⟨1, 1, 2, true, 1, 1⟩]
  resultRows := [⟨1, 1, 1, 1, 1⟩, ⟨1, 1, 1, 1, 2⟩, ⟨1, 1, 2, 1, 1⟩]

/-- What it yields. -/
def sortedContraction : Contraction where
  id := 0
  factor := 1
  result := ⟨"R", [⟨[⟨0, .virtual, 0, .creator⟩, ⟨0, .occupied, 0, .creator⟩,
    ⟨1, .occupied, 0, .creator⟩], []⟩], false⟩
  tensors := [⟨"T", [⟨[⟨1, .occupied, 0, .creator⟩, ⟨0, .occupied, 0, .creator⟩,
    ⟨0, .virtual, 0, .creator⟩], []⟩], false⟩]
  superVertices := [0]
  arcs := []
  externalArcs := []
  vertexIndices := [⟨1, .occupied, 0, .creator⟩, ⟨0, .occupied, 0, .creator⟩,
    ⟨0, .virtual, 0, .creator⟩]
  externalIndices := [⟨0, .occupied, 0, .creator⟩, ⟨1, .occupied, 0, .creator⟩,
    ⟨0, .virtual, 0, .creator⟩]

/-- The same with the row of the other space in between, or in front. -/
def interleaved : Record :=
  { sorted with
    vertexRows := [⟨1, 1, 1, true, 1, 2⟩, ⟨1, 1, 2, true, 1, 1⟩, ⟨1, 1, 1, true, 1, 1⟩]
    resultRows := [⟨1, 1, 2, 1, 1⟩, ⟨1, 1, 1, 1, 1⟩, ⟨1, 1, 1, 1, 2⟩] }

theorem ofRecord_sorted : ofRecord sorted = .ok sortedContraction := by decide +kernel

theorem sorted_interleaves : sorted.Interleaves interleaved := ⟨rfl, by decide, by decide⟩

theorem ofRecord_interleaved :
    sorted.Interleaves interleaved ∧ ∃ c', ofRecord interleaved = .ok c' ∧
      c'.result = sortedContraction.result ∧ c'.tensors = sortedContraction.tensors ∧
        c'.vertexIndices.Perm sortedContraction.vertexIndices ∧
          c'.externalIndices.Perm sortedContraction.externalIndices := by
  obtain ⟨haccept, hall⟩ := ofRecord_interleaves sorted_interleaves
  obtain ⟨c', hc'⟩ := haccept.mp ⟨_, ofRecord_sorted⟩
  exact ⟨sorted_interleaves, c', hc', hall _ _ ofRecord_sorted hc'⟩

end Contraction
end TensorContraction
