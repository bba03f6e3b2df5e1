import TensorContraction.Proofs.CliqueCover
import TensorContraction.Proofs.Exchange

/-!
# The antisymmetrizers of an accepted record

The pairs that a role exchanges form groups, each of which stays within one slot of the
result and one space and takes its members from different slots of the product.  All
exchangeable pairs are in some group, and the groups are as large as merging makes them:
two groups that share a member cannot be joined, because together they hold two indices
of one origin.

## Main definitions

* `Contraction.AntisymmetrizedBy` — the groups that antisymmetrize a role.

## Main results

* `Symmetrization.Finds.antisymmetrizedBy` — the groups antisymmetrize each role.
* `Symmetrization.antisymmetrizedBy_of_ofContraction` — what the groups of an accepted
  record are.
-/

namespace TensorContraction

/-! ### Groups -/

/-- The groups that antisymmetrize a role of a contraction. -/
structure Contraction.AntisymmetrizedBy (c : Contraction) (role : Role)
    (groups : List (List Index)) : Prop where
  /-- A group has something to exchange. -/
  two_le_length : ∀ g ∈ groups, 2 ≤ g.length
  /-- A group stays within a slot of the result and a space. -/
  place : ∀ g ∈ groups, ∃ slot s, ∀ x ∈ g, x ∈ c.externals slot role s
  /-- Each member comes from some slot of the product. -/
  origin : ∀ g ∈ groups, ∀ x ∈ g, ∃ o, Origin.of? c.tensors x = some o
  /-- No two members come from the same one. -/
  origins_ne : ∀ g ∈ groups, g.Pairwise fun x y => Origin.of? c.tensors x ≠ Origin.of? c.tensors y
  /-- Members are listed by number. -/
  id_lt : ∀ g ∈ groups, g.Pairwise fun x y => x.id < y.id
  /-- Indices of one slot and space that come from different slots of the product are together
  in some group. -/
  cover : ∀ slot s, ∀ x ∈ c.externals slot role s, ∀ y ∈ c.externals slot role s,
    Origin.of? c.tensors x ≠ Origin.of? c.tensors y → ∃ g ∈ groups, x ∈ g ∧ y ∈ g
  /-- No group lies inside another. -/
  not_subset : groups.Pairwise fun g h => ¬ g ⊆ h ∧ ¬ h ⊆ g
  /-- Groups that share a member hold two indices of one origin, one each. -/
  unmergeable : groups.Pairwise fun g h => (∃ z ∈ g, z ∈ h) →
    ∃ x ∈ g, ∃ y ∈ h, x ≠ y ∧ Origin.of? c.tensors x = Origin.of? c.tensors y
  /-- Groups are listed by the space and the number of their first members. -/
  ascending : groups.Pairwise fun g h => ∀ x ∈ g.head?, ∀ y ∈ h.head?,
    x.space.number < y.space.number ∨ x.space.number = y.space.number ∧ x.id ≤ y.id

theorem Contraction.Exchanges.ne {c : Contraction} {role : Role} {x y : Index}
    (h : c.Exchanges role x y) : x ≠ y := by
  rintro rfl
  obtain ⟨-, -, -, -, hne⟩ := h
  exact hne rfl

theorem Contraction.eq_of_mem_externals {c : Contraction} {role : Role} {slot slot' : Nat}
    {s s' : Space} {x : Index} (h : x ∈ c.externals slot role s)
    (h' : x ∈ c.externals slot' role s') : slot = slot' ∧ s = s' := by
  obtain ⟨-, rfl, -, rfl⟩ := mem_externals.mp h
  obtain ⟨-, rfl, -, rfl⟩ := mem_externals.mp h'
  exact ⟨rfl, rfl⟩

theorem Index.le_of_not_key_lt {x y : Index} (h : ¬ y.key < x.key) :
    x.space.number < y.space.number ∨ x.space.number = y.space.number ∧ x.id ≤ y.id := by
  rw [Key.lt_iff] at h
  simp only [Key.rank, Index.key, List.cons_lt_cons_iff] at h
  omega

/-- Within a slot and a space only numbers tell indices apart. -/
theorem Contraction.pairwise_id_lt {c : Contraction} {role : Role} {slot : Nat} {s : Space}
    {g : List Index} (hnodup : g.Nodup) (hkey : g.Pairwise fun x y => ¬ y.key < x.key)
    (hplace : ∀ x ∈ g, x ∈ c.externals slot role s) : g.Pairwise fun x y => x.id < y.id := by
  refine (hnodup.and hkey).imp_of_mem ?_
  rintro x y hx hy ⟨hne, hkey⟩
  obtain ⟨-, hxv, hxr, hxs⟩ := mem_externals.mp (hplace x hx)
  obtain ⟨-, hyv, hyr, hys⟩ := mem_externals.mp (hplace y hy)
  -- slot, role and space agree, so equal numbers would make the indices equal
  have hid : x.id ≠ y.id := by
    intro hid
    refine hne (Index.rank_inj.mp ?_)
    rw [Index.rank, Index.rank, hid, hxs, hys, hxv, hyv, hxr, hyr]
  have hle := Index.le_of_not_key_lt hkey
  rw [hxs, hys] at hle
  omega

namespace Symmetrization

open Clique

variable {ps : List (Index × Index)} {g : List Index} {x y : Index}

/-- Groups are the sets that pairs form, with their members in another order. -/
theorem mem_groupsOf_iff :
    g ∈ groupsOf ps ↔ ∃ k ∈ ofPairs ps, Ascending.sortOn Index.key k = g := by
  rw [groupsOf, Ascending.mem_sortOn, List.mem_map]

theorem exists_group_of_pair (h : (x, y) ∈ ps ∨ (y, x) ∈ ps) :
    ∃ g ∈ groupsOf ps, x ∈ g ∧ y ∈ g := by
  obtain ⟨k, hk, hx, hy⟩ := exists_group_of_joined h
  refine ⟨_, mem_groupsOf_iff.mpr ⟨k, hk, rfl⟩, ?_, ?_⟩
  · exact (Ascending.mem_sortOn _).mpr hx
  · exact (Ascending.mem_sortOn _).mpr hy

theorem pair_of_mem_group (hg : g ∈ groupsOf ps) (hx : x ∈ g) (hy : y ∈ g) (hxy : x ≠ y) :
    (x, y) ∈ ps ∨ (y, x) ∈ ps := by
  obtain ⟨k, hk, rfl⟩ := mem_groupsOf_iff.mp hg
  rw [Ascending.mem_sortOn] at hx hy
  exact joined_of_mem hk hx hy hxy

theorem exists_pair_of_group (hg : g ∈ groupsOf ps) : ∃ x ∈ g, ∃ y ∈ g, (x, y) ∈ ps := by
  obtain ⟨k, hk, rfl⟩ := mem_groupsOf_iff.mp hg
  obtain ⟨x, hx, y, hy, hxy⟩ := exists_pair_of_mem hk
  refine ⟨x, ?_, y, ?_, hxy⟩
  · exact (Ascending.mem_sortOn _).mpr hx
  · exact (Ascending.mem_sortOn _).mpr hy

theorem groupsOf_nodup (hg : g ∈ groupsOf ps) : g.Nodup := by
  obtain ⟨k, hk, rfl⟩ := mem_groupsOf_iff.mp hg
  rw [(Ascending.sortOn_perm _ k).nodup_iff]
  exact Ascending.nodup_of_pairwise (pairwise_lt_of_mem hk)

theorem groupsOf_pairwise_key (hg : g ∈ groupsOf ps) : g.Pairwise fun x y => ¬ y.key < x.key := by
  obtain ⟨k, -, rfl⟩ := mem_groupsOf_iff.mp hg
  exact Ascending.sortOn_pairwise _ k

theorem groupsOf_apart (ps : List (Index × Index)) :
    (groupsOf ps).Pairwise (Apart (seeds ps)) := by
  rw [groupsOf, (Ascending.sortOn_perm _ _).pairwise_iff Apart.symm, List.pairwise_map]
  refine (apart_ofPairs ps).imp ?_
  intro g h hgh
  unfold Apart
  simp only [Ascending.mem_sortOn]
  exact hgh

theorem groupsOf_pairwise_leadRank (ps : List (Index × Index)) :
    (groupsOf ps).Pairwise fun g h => ¬ leadRank h < leadRank g :=
  Ascending.sortOn_pairwise _ _

/-! ### The groups of a contraction -/

namespace Finds

variable {c : Contraction} {found : List (Ladder (Index × Index))} {role : Role} {h : List Index}

theorem exchanges_of_mem (hf : Finds c found) (hdealt : c.ResultDealt)
    (hg : g ∈ groupsOf (found.flatMap (·.on role))) (hx : x ∈ g) (hy : y ∈ g) (hxy : x ≠ y) :
    c.Exchanges role x y := by
  exact (hf.mem_iff hdealt).mp (pair_of_mem_group hg hx hy hxy)

theorem exists_exchanges (hf : Finds c found) (hdealt : c.ResultDealt)
    (hg : g ∈ groupsOf (found.flatMap (·.on role))) :
    ∃ x ∈ g, ∃ y ∈ g, c.Exchanges role x y := by
  obtain ⟨x, hx, y, hy, hxy⟩ := exists_pair_of_group hg
  exact ⟨x, hx, y, hy, (hf.mem_iff hdealt).mp (.inl hxy)⟩

theorem two_le_length (hf : Finds c found) (hdealt : c.ResultDealt)
    (hg : g ∈ groupsOf (found.flatMap (·.on role))) : 2 ≤ g.length := by
  obtain ⟨x, hx, y, hy, hxy⟩ := hf.exists_exchanges hdealt hg
  have hsub : [x, y] ⊆ g := by
    rw [List.cons_subset, List.cons_subset]
    exact ⟨hx, hy, List.nil_subset g⟩
  have hnodup : [x, y].Nodup := List.nodup_cons.mpr ⟨by simpa using hxy.ne, List.nodup_singleton y⟩
  exact (List.subperm_of_subset hnodup hsub).length_le

/-- One exchange fixes the slot and the space of all members. -/
theorem exists_place (hf : Finds c found) (hdealt : c.ResultDealt)
    (hg : g ∈ groupsOf (found.flatMap (·.on role))) :
    ∃ slot s, ∀ x ∈ g, x ∈ c.externals slot role s := by
  obtain ⟨x, hx, -, -, slot, space, hxe, -⟩ := hf.exists_exchanges hdealt hg
  refine ⟨slot, space, fun y hy => ?_⟩
  -- every other member is exchanged with `x`, which has one place only
  by_cases hxy : x = y
  · exact hxy ▸ hxe
  · obtain ⟨slot', space', hxe', hye', -⟩ := hf.exchanges_of_mem hdealt hg hx hy hxy
    obtain ⟨rfl, rfl⟩ := Contraction.eq_of_mem_externals hxe hxe'
    exact hye'

theorem origins_ne (hf : Finds c found) (hdealt : c.ResultDealt)
    (hg : g ∈ groupsOf (found.flatMap (·.on role))) :
    g.Pairwise fun x y => Origin.of? c.tensors x ≠ Origin.of? c.tensors y := by
  have hnodup : g.Nodup := groupsOf_nodup hg
  refine hnodup.imp_of_mem ?_
  intro x y hx hy hxy
  obtain ⟨-, -, -, -, hne⟩ := hf.exchanges_of_mem hdealt hg hx hy hxy
  exact hne

theorem id_lt (hf : Finds c found) (hdealt : c.ResultDealt)
    (hg : g ∈ groupsOf (found.flatMap (·.on role))) :
    g.Pairwise fun x y => x.id < y.id := by
  obtain ⟨slot, space, hplace⟩ := hf.exists_place hdealt hg
  exact Contraction.pairwise_id_lt (groupsOf_nodup hg) (groupsOf_pairwise_key hg) hplace

theorem ne_nil (hf : Finds c found) (hdealt : c.ResultDealt)
    (hg : g ∈ groupsOf (found.flatMap (·.on role))) :
    g ≠ [] := by
  obtain ⟨x, hx, -⟩ := hf.exists_exchanges hdealt hg
  exact List.ne_nil_of_mem hx

/-- Groups apart that share a member are in one place, and there only one origin keeps two
indices from being exchanged. -/
theorem exists_origin_eq (hf : Finds c found) (hdealt : c.ResultDealt)
    (hg : g ∈ groupsOf (found.flatMap (·.on role))) (hh : h ∈ groupsOf (found.flatMap (·.on role)))
    (hapart : Apart (seeds (found.flatMap (·.on role))) g h) (hshared : ∃ z ∈ g, z ∈ h) :
    ∃ x ∈ g, ∃ y ∈ h, x ≠ y ∧ Origin.of? c.tensors x = Origin.of? c.tensors y := by
  obtain ⟨x, hxg, hxh, y, hyh, -, hunpaired⟩ := hapart hshared
  obtain ⟨z, hzg, hzh⟩ := hshared
  obtain ⟨slot, space, hplaceg⟩ := hf.exists_place hdealt hg
  obtain ⟨slot', space', hplaceh⟩ := hf.exists_place hdealt hh
  -- the shared member puts both groups in one place
  obtain ⟨rfl, rfl⟩ := Contraction.eq_of_mem_externals (hplaceg z hzg) (hplaceh z hzh)
  refine ⟨x, hxg, y, hyh, ?_, ?_⟩
  · intro hxy
    exact hxh (hxy ▸ hyh)
  · by_contra hne
    have hxy : c.Exchanges role x y := ⟨slot, space, hplaceg x hxg, hplaceh y hyh, hne⟩
    exact hunpaired (paired_seeds_iff.mpr ((hf.mem_iff hdealt).mpr hxy))

/-- **The groups of a role antisymmetrize it.** -/
theorem antisymmetrizedBy (hf : Finds c found) (hdealt : c.ResultDealt) (role : Role) :
    c.AntisymmetrizedBy role (groupsOf (found.flatMap (·.on role))) where
  two_le_length g hg := hf.two_le_length hdealt hg
  place g hg := hf.exists_place hdealt hg
  origin := by
    intro g hg x hx
    obtain ⟨slot, space, hplace⟩ := hf.exists_place hdealt hg
    exact hf.exists_origin hdealt (Contraction.mem_externals.mp (hplace x hx)).1
  origins_ne g hg := hf.origins_ne hdealt hg
  id_lt g hg := hf.id_lt hdealt hg
  cover := by
    intro slot space x hx y hy hne
    exact exists_group_of_pair ((hf.mem_iff hdealt).mpr ⟨slot, space, hx, hy, hne⟩)
  not_subset := by
    refine (groupsOf_apart _).imp_of_mem ?_
    intro g h hg hh hapart
    exact ⟨hapart.not_subset (hf.ne_nil hdealt hg), hapart.symm.not_subset (hf.ne_nil hdealt hh)⟩
  unmergeable := by
    refine (groupsOf_apart _).imp_of_mem ?_
    intro g h hg hh hapart hshared
    exact hf.exists_origin_eq hdealt hg hh hapart hshared
  ascending := by
    refine (groupsOf_pairwise_leadRank _).imp ?_
    intro g h hlead x hx y hy
    rw [leadRank, leadRank, Option.mem_def.mp hx, Option.mem_def.mp hy] at hlead
    exact Index.le_of_not_key_lt hlead

end Finds

theorem Needs.antisymmetrizedBy {c : Contraction} {found : List (Ladder (Index × Index))}
    {s : Symmetrization} (hn : Needs c found s) (hdealt : c.ResultDealt) (role : Role) :
    c.AntisymmetrizedBy role (s.groups.on role) := by
  rw [hn.groups_eq]
  exact hn.pairs.antisymmetrizedBy hdealt role

/-- **What the groups of an accepted record are.** -/
theorem antisymmetrizedBy_of_ofContraction {r : Record} {c : Contraction} {s : Symmetrization}
    (hr : Contraction.ofRecord r = .ok c) (hs : ofContraction c = .ok s) (role : Role) :
    c.AntisymmetrizedBy role (s.groups.on role) := by
  obtain ⟨found, hn⟩ := ofContraction_eq_ok_iff.mp hs
  exact hn.antisymmetrizedBy (Contraction.resultDealt_of_ofRecord hr) role

/-- Three creators of one slot of the result, the first two from one slot of the product. -/
def uneven : Record where
  id := 1
  result := ⟨"R", false, [⟨[.occupied, .occupied, .occupied], [.virtual, .virtual]⟩]⟩
  factor := ⟨1, 1, 1⟩
  vertexCount := 2
  operatorCount := 2
  superVertices := [1, 2]
  arcCount := 0
  externalArcCount := 0
  vertices := [⟨"T", false, [⟨[.occupied, .occupied], []⟩]⟩,
    ⟨"T", false, [⟨[.occupied], [.virtual, .virtual]⟩]⟩]
  arcs := []
  externalArcs := []
  vertexRows := [⟨1, 1, 1, true, 1, 1⟩, ⟨1, 1, 1, true, 1, 2⟩, ⟨2, 1, 1, true, 1, 3⟩,
    ⟨2, 2, 2, true, 1, 1⟩, ⟨2, 2, 2, true, 1, 2⟩]
  resultRows := [⟨1, 1, 1, 1, 1⟩, ⟨1, 1, 1, 1, 2⟩, ⟨1, 1, 1, 1, 3⟩, ⟨1, 2, 2, 1, 1⟩,
    ⟨1, 2, 2, 1, 2⟩]

def unevenContraction : Contraction where
  id := 0
  factor := 1
  result := ⟨"R", [⟨[⟨0, .occupied, 0, .creator⟩, ⟨1, .occupied, 0, .creator⟩,
      ⟨2, .occupied, 0, .creator⟩],
    [⟨1, .virtual, 0, .annihilator⟩, ⟨0, .virtual, 0, .annihilator⟩]⟩], false⟩
  tensors := [⟨"T", [⟨[⟨0, .occupied, 0, .creator⟩, ⟨1, .occupied, 0, .creator⟩], []⟩], false⟩,
    ⟨"T", [⟨[⟨2, .occupied, 1, .creator⟩],
      [⟨1, .virtual, 1, .annihilator⟩, ⟨0, .virtual, 1, .annihilator⟩]⟩], false⟩]
  superVertices := [0, 1]
  arcs := []
  externalArcs := []
  vertexIndices := [⟨0, .occupied, 0, .creator⟩, ⟨1, .occupied, 0, .creator⟩,
    ⟨2, .occupied, 1, .creator⟩, ⟨0, .virtual, 1, .annihilator⟩, ⟨1, .virtual, 1, .annihilator⟩]
  externalIndices := [⟨0, .occupied, 0, .creator⟩, ⟨1, .occupied, 0, .creator⟩,
    ⟨2, .occupied, 0, .creator⟩, ⟨0, .virtual, 0, .annihilator⟩, ⟨1, .virtual, 0, .annihilator⟩]

/-- The first two creators are each exchanged with the third, but not with each other. -/
def unevenSymmetrization : Symmetrization where
  groups := ⟨[[⟨0, .occupied, 0, .creator⟩, ⟨2, .occupied, 0, .creator⟩],
    [⟨1, .occupied, 0, .creator⟩, ⟨2, .occupied, 0, .creator⟩]], []⟩
  implied := 12
  required := 4

theorem ofRecord_uneven : Contraction.ofRecord uneven = .ok unevenContraction := by decide +kernel

theorem ofContraction_uneven : ofContraction unevenContraction = .ok unevenSymmetrization := by
  decide +kernel

theorem uneven_antisymmetrizedBy :
    Contraction.ofRecord uneven = .ok unevenContraction ∧
      ofContraction unevenContraction = .ok unevenSymmetrization ∧
      unevenContraction.AntisymmetrizedBy .creator (unevenSymmetrization.groups.on .creator) :=
  ⟨ofRecord_uneven, ofContraction_uneven,
    antisymmetrizedBy_of_ofContraction ofRecord_uneven ofContraction_uneven .creator⟩

end Symmetrization

end TensorContraction
