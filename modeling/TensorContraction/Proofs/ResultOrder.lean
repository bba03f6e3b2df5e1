import Mathlib.Data.List.Perm.Basic
import TensorContraction.Proofs.Antisymmetrizers
import TensorContraction.Proofs.Ratio

/-!
# The order of the rows of a result

A record lists the indices of its result in some order, and the groups of the result keep it
within each space.  For the antisymmetrizers the order does not matter: which indices are
exchanged depends on the slot, the role, the space and the origin of each, the sets that pairs
form depend on which pairs there are, and counting depends on how many indices a slot has.

## Main definitions

* `Record.ReordersResult` — records that differ in the order of the rows of the result.
* `Contraction.ReordersResult` — contractions that differ in the order of external indices.

## Main results

* `Contraction.ReordersResult.ofContraction` — such contractions need the same symmetrization.
* `Contraction.ofRecord_reordersResult` — such records are accepted alike and need the same.
-/

namespace TensorContraction

/-! ### Groups -/

section Groups

variable {g g' : Group} {place : Nat} {signature : Signature} {pool pool' : List Index}

/-- A place finds its indices in a pool in any order. -/
theorem Group.Carries.exists_of_perm (hg : g.Carries place signature pool)
    (hpool : pool.Perm pool') : ∃ g' : Group, g'.Carries place signature pool' := by
  have hspaces := Group.exists_carries_iff.mp ⟨g, hg⟩
  refine Group.exists_carries_iff.mpr fun role => ?_
  exact ((hpool.symm.filter _).map _).trans (hspaces role)

/-- What it finds is the same, string by string. -/
theorem Group.Carries.on_perm (hg : g.Carries place signature pool)
    (hg' : g'.Carries place signature pool') (hpool : pool.Perm pool') (role : Role) :
    (g.on role).Perm (g'.on role) :=
  (hg.perm role).trans ((hpool.filter _).trans (hg'.perm role).symm)

end Groups

/-! ### Contractions -/

/-- Contractions of the same tensors whose results differ in the order of indices. -/
structure Contraction.ReordersResult (c c' : Contraction) : Prop where
  /-- The tensors are the same. -/
  tensors_eq : c'.tensors = c.tensors
  /-- The external indices are the same, in any order. -/
  externalIndices : c.externalIndices.Perm c'.externalIndices
  /-- So are those of each slot and role. -/
  groups : List.Forall₂ (fun g g' : Group => ∀ role, (g.on role).Perm (g'.on role))
    c.result.groups c'.result.groups

namespace Contraction.ReordersResult

open Symmetrization

variable {c c' : Contraction} {found found' : List (Ladder (Index × Index))} {role : Role}
  {x y : Index} {s : Symmetrization}

theorem symm (h : c.ReordersResult c') : c'.ReordersResult c where
  tensors_eq := h.tensors_eq.symm
  externalIndices := h.externalIndices.symm
  groups := (h.groups.imp fun _ _ hg role => (hg role).symm).flip

theorem exchanges_iff (h : c.ReordersResult c') :
    c.Exchanges role x y ↔ c'.Exchanges role x y := by
  unfold Contraction.Exchanges
  simp only [Contraction.mem_externals, h.tensors_eq, h.externalIndices.mem_iff]

/-- Pairs are found in both or in neither. -/
theorem exists_finds (h : c.ReordersResult c') (hf : ∃ found, Finds c found) :
    ∃ found, Finds c' found := by
  rw [exists_finds_iff] at hf ⊢
  refine (Check.forall_mem_of_forall₂ (fun g g' hg => ?_) h.groups).mp hf
  refine forall_congr' fun role => ?_
  rw [h.tensors_eq, mixed_iff, mixed_iff, (hg role).length_eq]
  simp only [(hg role).mem_iff]

theorem groupsOf_eq (h : c.ReordersResult c') (hdealt : c.ResultDealt) (hdealt' : c'.ResultDealt)
    (hf : Finds c found) (hf' : Finds c' found') (role : Role) :
    groupsOf (found.flatMap (·.on role)) = groupsOf (found'.flatMap (·.on role)) := by
  rw [groupsOf, groupsOf, Clique.ofPairs_congr fun x y => ?_]
  rw [hf.mem_iff hdealt, hf'.mem_iff hdealt', h.exchanges_iff]

theorem orders_eq (h : c.ReordersResult c') :
    orders (c.result.groups.flatMap fun g => [g.creators, g.annihilators]) =
      orders (c'.result.groups.flatMap fun g => [g.creators, g.annihilators]) := by
  refine orders_congr ?_
  rw [List.map_flatMap, List.map_flatMap, List.flatMap_def, List.flatMap_def]
  refine congrArg List.flatten (Check.map_eq_of_forall₂ (fun g g' hg => ?_) h.groups)
  have hcreators := (hg .creator).length_eq
  have hannihilators := (hg .annihilator).length_eq
  rw [Ladder.on_creator, Ladder.on_creator] at hcreators
  rw [Ladder.on_annihilator, Ladder.on_annihilator] at hannihilators
  simp only [List.map_cons, List.map_nil, hcreators, hannihilators]

/-- **The same pairs make the same symmetrization.** -/
theorem ofFound_eq (h : c.ReordersResult c') (hdealt : c.ResultDealt)
    (hdealt' : c'.ResultDealt) (hf : Finds c found) (hf' : Finds c' found') :
    ofFound c found = ofFound c' found' := by
  have hcreators := h.groupsOf_eq hdealt hdealt' hf hf' .creator
  have hannihilators := h.groupsOf_eq hdealt hdealt' hf hf' .annihilator
  simp only [Ladder.on_creator, Ladder.on_annihilator] at hcreators hannihilators
  unfold ofFound
  rw [hcreators, hannihilators, h.orders_eq]

theorem ofContraction (h : c.ReordersResult c') (hdealt : c.ResultDealt)
    (hdealt' : c'.ResultDealt) (hs : Symmetrization.ofContraction c = .ok s) :
    Symmetrization.ofContraction c' = .ok s := by
  obtain ⟨found, hn⟩ := ofContraction_eq_ok_iff.mp hs
  obtain ⟨found', hf'⟩ := h.exists_finds ⟨found, hn.pairs⟩
  rw [ofContraction_eq_ok_iff_dvd hn.pairs, h.ofFound_eq hdealt hdealt' hn.pairs hf'] at hs
  exact (ofContraction_eq_ok_iff_dvd hf').mpr hs

end Contraction.ReordersResult

/-! ### Records -/

/-- Records that differ in the order of the rows of the result. -/
structure Record.ReordersResult (r r' : Record) : Prop where
  /-- They differ in these rows at most. -/
  rest_eq : r' = { r with resultRows := r'.resultRows }
  /-- The rows are the same, in any order. -/
  resultRows : r.resultRows.Perm r'.resultRows

namespace Record

variable {r r' : Record} {vs : List Vertex} {c : Contraction}

theorem ReordersResult.symm (h : r.ReordersResult r') : r'.ReordersResult r where
  rest_eq := by rw [h.rest_eq]
  resultRows := h.resultRows.symm

theorem Yields.reorderResult (hy : r.Yields vs c) (h : r.ReordersResult r') :
    ∃ c', r'.Yields vs c' ∧ c.ReordersResult c' := by
  obtain ⟨hrest, hrows⟩ := h
  obtain ⟨ys, hys, hperm⟩ := List.perm_comp_forall₂ hrows.symm hy.externalIndices
  -- each slot finds its indices in the new order
  obtain ⟨groups, hgroups⟩ : ∃ groups, List.Forall₂ (fun p g => Group.Carries g p.2 p.1 ys)
      r.result.signatures.zipIdx groups := by
    refine Check.exists_forall₂_iff.mpr fun p hp => ?_
    obtain ⟨g, -, hg⟩ := Check.exists_right_of_forall₂ hy.resultGroups hp
    exact hg.exists_of_perm hperm.symm
  refine ⟨{ c with externalIndices := ys, result := { c.result with groups := groups } }, ?_, ?_⟩
  · rw [hrest]
    exact { hy with
      externalIndices := hys
      resultPlaces := hy.resultPlaces.trans hperm.length_eq.symm
      resultGroups := hgroups }
  · exact ⟨rfl, hperm.symm, Check.forall₂_of_forall₂_left
      (fun _ _ _ hg hg' => hg.on_perm hg' hperm.symm) hy.resultGroups hgroups⟩

end Record

namespace Contraction

variable {r r' : Record} {c c' : Contraction}

theorem exists_ofRecord_of_reordersResult (h : r.ReordersResult r') (hc : ofRecord r = .ok c) :
    ∃ c', ofRecord r' = .ok c' ∧ c.ReordersResult c' := by
  obtain ⟨vs, hy⟩ := ofRecord_eq_ok_iff.mp hc
  obtain ⟨c', hy', hcc'⟩ := hy.reorderResult h
  exact ⟨c', ofRecord_eq_ok_iff.mpr ⟨vs, hy'⟩, hcc'⟩

/-- **In which order the external indices are listed does not matter.**  The record is accepted
or not as before, and if it is, it needs the same symmetrization or fails to have one as
before. -/
theorem ofRecord_reordersResult (h : r.ReordersResult r') :
    ((∃ c, ofRecord r = .ok c) ↔ ∃ c', ofRecord r' = .ok c') ∧
      ∀ c c', ofRecord r = .ok c → ofRecord r' = .ok c' →
        ∀ s, Symmetrization.ofContraction c = .ok s ↔ Symmetrization.ofContraction c' = .ok s := by
  refine ⟨⟨?_, ?_⟩, ?_⟩
  · rintro ⟨c, hc⟩
    obtain ⟨c', hc', -⟩ := exists_ofRecord_of_reordersResult h hc
    exact ⟨c', hc'⟩
  · rintro ⟨c', hc'⟩
    obtain ⟨c, hc, -⟩ := exists_ofRecord_of_reordersResult h.symm hc'
    exact ⟨c, hc⟩
  · intro c c' hc hc' s
    obtain ⟨d, hd, hcc'⟩ := exists_ofRecord_of_reordersResult h hc
    obtain rfl : d = c' := Except.ok.inj (hd.symm.trans hc')
    have hdealt := resultDealt_of_ofRecord hc
    have hdealt' := resultDealt_of_ofRecord hc'
    exact ⟨hcc'.ofContraction hdealt hdealt', hcc'.symm.ofContraction hdealt' hdealt⟩

/-- The record of three creators and two annihilators with its rows listed backwards. -/
def reversedUneven : Record :=
  { Symmetrization.uneven with resultRows := Symmetrization.uneven.resultRows.reverse }

theorem uneven_reordersResult : Symmetrization.uneven.ReordersResult reversedUneven :=
  ⟨rfl, (List.reverse_perm _).symm⟩

theorem ofRecord_reversedUneven :
    Symmetrization.uneven.ReordersResult reversedUneven ∧
      ∃ c', ofRecord reversedUneven = .ok c' ∧
        Symmetrization.ofContraction c' = .ok Symmetrization.unevenSymmetrization := by
  obtain ⟨haccept, hall⟩ := ofRecord_reordersResult uneven_reordersResult
  obtain ⟨c', hc'⟩ := haccept.mp ⟨_, Symmetrization.ofRecord_uneven⟩
  have hsame := hall _ _ Symmetrization.ofRecord_uneven hc' Symmetrization.unevenSymmetrization
  exact ⟨uneven_reordersResult, c', hc', hsame.mp Symmetrization.ofContraction_uneven⟩

end Contraction
end TensorContraction
