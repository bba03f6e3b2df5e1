import Mathlib.Data.Finset.Image
import TensorContraction.Proofs.Disjointness
import TensorContraction.Proofs.MaximalClique

/-!
# Groups as maximal sets of exchangeable indices

Antisymmetrizers are meant to be the largest sets of indices that can be exchanged pairwise.
Merging pairs reaches them only if the origins leave it no choice.  Indices of one slot and
space can be exchanged exactly if their origins differ, so a largest set takes one index from
each origin.  If at most one origin has several indices, or if there are no more than two
origins, the groups are all the largest sets, whatever order they are merged in.  With two
shared origins and a third one, some merges rule out others.

## Main definitions

* `Contraction.MaximalExchange` — a largest set of exchangeable indices.
* `Contraction.PlainOrigins` — origins that leave merging no choice.

## Main results

* `Contraction.PlainOrigins.fanless` — plain origins form no fan.
* `Contraction.AntisymmetrizedBy.mem_toFinset_iff` — with plain origins the groups are the
  largest sets.
-/

namespace TensorContraction

namespace Contraction

variable {c : Contraction} {role : Role}

/-! ### Largest sets of exchangeable indices -/

/-- A set of indices that a role exchanges pairwise, as large as possible. -/
structure MaximalExchange (c : Contraction) (role : Role) (k : Finset Index) : Prop where
  /-- Any two members are exchanged. -/
  exchanges : ∀ x ∈ k, ∀ y ∈ k, x ≠ y → c.Exchanges role x y
  /-- There are two of them. -/
  exists_exchanges : ∃ x ∈ k, ∃ y ∈ k, c.Exchanges role x y
  /-- No other index can be exchanged with all members. -/
  maximal : ∀ y, (∀ x ∈ k, x ≠ y → c.Exchanges role x y) → y ∈ k

theorem Exchanges.symm {x y : Index} (h : c.Exchanges role x y) : c.Exchanges role y x := by
  obtain ⟨slot, s, hx, hy, hne⟩ := h
  exact ⟨slot, s, hy, hx, hne.symm⟩

theorem Exchanges.origin_ne {x y : Index} (h : c.Exchanges role x y) :
    Origin.of? c.tensors x ≠ Origin.of? c.tensors y := by
  obtain ⟨-, -, -, -, hne⟩ := h
  exact hne

/-- Indices that can be exchanged stand in one place. -/
theorem Exchanges.mem_externals {x y : Index} (h : c.Exchanges role x y) {slot : Nat} {s : Space}
    (hx : x ∈ c.externals slot role s) : y ∈ c.externals slot role s := by
  obtain ⟨slot', s', hx', hy, -⟩ := h
  obtain ⟨rfl, rfl⟩ := eq_of_mem_externals hx hx'
  exact hy

namespace MaximalExchange

variable {k : Finset Index}

/-- A largest set has one place. -/
theorem exists_place (h : c.MaximalExchange role k) :
    ∃ slot s, ∀ x ∈ k, x ∈ c.externals slot role s := by
  obtain ⟨x, hx, -, -, slot, s, hxe, -⟩ := h.exists_exchanges
  refine ⟨slot, s, fun y hy => ?_⟩
  by_cases hxy : x = y
  · exact hxy ▸ hxe
  · exact (h.exchanges x hx y hy hxy).mem_externals hxe

end MaximalExchange

/-! ### Plain origins -/

/-- An index that shares its origin with another one of its place. -/
def SharesOrigin (c : Contraction) (role : Role) (x : Index) : Prop :=
  ∃ y ∈ c.externals x.vertex role x.space, x ≠ y ∧ Origin.of? c.tensors x = Origin.of? c.tensors y

theorem sharesOrigin_of_mem {slot : Nat} {s : Space} {x y : Index}
    (hx : x ∈ c.externals slot role s) (hy : y ∈ c.externals slot role s) (hne : x ≠ y)
    (hsame : Origin.of? c.tensors x = Origin.of? c.tensors y) : c.SharesOrigin role x := by
  obtain ⟨-, rfl, -, rfl⟩ := mem_externals.mp hx
  exact ⟨y, hy, hne, hsame⟩

/-- Within each slot and space, at most two origins occur or at most one of them is shared. -/
def PlainOrigins (c : Contraction) (role : Role) : Prop :=
  ∀ slot s,
    (∀ x ∈ c.externals slot role s, ∀ y ∈ c.externals slot role s,
      ∀ z ∈ c.externals slot role s,
        Origin.of? c.tensors x = Origin.of? c.tensors y ∨
          Origin.of? c.tensors x = Origin.of? c.tensors z ∨
            Origin.of? c.tensors y = Origin.of? c.tensors z) ∨
    ∀ x ∈ c.externals slot role s, ∀ y ∈ c.externals slot role s, c.SharesOrigin role x →
      c.SharesOrigin role y → Origin.of? c.tensors x = Origin.of? c.tensors y

theorem EvenOrigins.plainOrigins (h : c.EvenOrigins role) : c.PlainOrigins role := by
  intro slot s
  refine .inr fun x hx y hy hshared _ => ?_
  obtain ⟨z, hz, hne, hsame⟩ := hshared
  obtain ⟨-, rfl, -, rfl⟩ := mem_externals.mp hx
  rcases h x.vertex x.space with hequal | hdifferent
  · exact hequal x hx y hy
  · exact absurd hsame (hdifferent x hx z hz hne)

/-- A fan takes three origins, two of them shared: one by the first and the third in the row, one
by the second and the fourth. -/
theorem PlainOrigins.fanless (hplain : c.PlainOrigins role) :
    Clique.Fanless (c.Exchanges role) := by
  intro hub x y z w hfan
  obtain ⟨hx, hy, hz, hw⟩ : c.Exchanges role hub x ∧ c.Exchanges role hub y ∧
      c.Exchanges role hub z ∧ c.Exchanges role hub w := by simpa using hfan.spokes
  obtain ⟨slot, s, hhub, hxe, hhubx⟩ := hx
  have hye := hy.mem_externals hhub
  have hze := hz.mem_externals hhub
  have hwe := hw.mem_externals hhub
  have hxz : Origin.of? c.tensors x = Origin.of? c.tensors z := by
    by_contra hne
    exact hfan.left_gap.2 ⟨slot, s, hxe, hze, hne⟩
  have hyw : Origin.of? c.tensors y = Origin.of? c.tensors w := by
    by_contra hne
    exact hfan.right_gap.2 ⟨slot, s, hye, hwe, hne⟩
  rcases hplain slot s with htwo | hone
  · rcases htwo hub hhub x hxe y hye with hsame | hsame | hsame
    · exact hhubx hsame
    · exact hy.origin_ne hsame
    · exact hfan.row.1.origin_ne hsame
  · have hxs := sharesOrigin_of_mem hxe hze hfan.left_gap.1 hxz
    have hys := sharesOrigin_of_mem hye hwe hfan.right_gap.1 hyw
    exact hfan.row.1.origin_ne (hone x hxe y hye hxs hys)

/-! ### Groups -/

namespace AntisymmetrizedBy

variable {groups : List (List Index)} {g : List Index} {k : Finset Index} {x y : Index}

theorem exchanges (h : c.AntisymmetrizedBy role groups) (hg : g ∈ groups) (hx : x ∈ g)
    (hy : y ∈ g) (hxy : x ≠ y) : c.Exchanges role x y := by
  obtain ⟨slot, s, hplace⟩ := h.place g hg
  exact ⟨slot, s, hplace x hx, hplace y hy, h.origin_ne hg hx hy hxy⟩

theorem nodup (h : c.AntisymmetrizedBy role groups) (hg : g ∈ groups) : g.Nodup := by
  refine (h.id_lt g hg).imp ?_
  rintro a b hab rfl
  exact Nat.lt_irrefl a.id hab

theorem exists_exchanges (h : c.AntisymmetrizedBy role groups) (hg : g ∈ groups) :
    ∃ x ∈ g, ∃ y ∈ g, c.Exchanges role x y := by
  obtain ⟨x, hx, y, hy, hxy⟩ := exists_ne_of_nodup (h.nodup hg) (h.two_le_length g hg)
  exact ⟨x, hx, y, hy, h.exchanges hg hx hy hxy⟩

theorem exists_group (h : c.AntisymmetrizedBy role groups) (hxy : c.Exchanges role x y) :
    ∃ g ∈ groups, x ∈ g ∧ y ∈ g := by
  obtain ⟨slot, s, hx, hy, hne⟩ := hxy
  exact h.cover slot s x hx y hy hne

theorem exists_origin_eq (h : c.AntisymmetrizedBy role groups) {g' : List Index} (hg : g ∈ groups)
    (hg' : g' ∈ groups) (hne : g ≠ g') (hshared : ∃ z ∈ g, z ∈ g') :
    ∃ x ∈ g, ∃ y ∈ g', x ≠ y ∧ Origin.of? c.tensors x = Origin.of? c.tensors y := by
  have hsymm : Std.Symm fun g h : List Index => (∃ z ∈ g, z ∈ h) →
      ∃ x ∈ g, ∃ y ∈ h, x ≠ y ∧ Origin.of? c.tensors x = Origin.of? c.tensors y := by
    refine ⟨fun g h hgh hshared => ?_⟩
    obtain ⟨z, hzh, hzg⟩ := hshared
    obtain ⟨x, hx, y, hy, hxy, hsame⟩ := hgh ⟨z, hzg, hzh⟩
    exact ⟨y, hy, x, hx, hxy.symm, hsame.symm⟩
  exact h.unmergeable.forall hg hg' hne hshared

/-- Groups that share a member are kept apart by two indices of one origin, which are not
exchanged. -/
theorem settled (h : c.AntisymmetrizedBy role groups) :
    Clique.Settled (c.Exchanges role) groups where
  symm _ _ := Exchanges.symm
  clique _ hg _ hx _ hy hxy := h.exchanges hg hx hy hxy
  cover _ _ hxy := h.exists_group hxy
  exists_related _ hg := h.exists_exchanges hg
  exists_gap := by
    intro g hg g' hg' hne hshared
    obtain ⟨x, hx, y, hy, hxy, hsame⟩ := h.exists_origin_eq hg hg' hne hshared
    refine ⟨x, hx, fun hx' => ?_, y, hy, fun hy' => ?_, fun hex => hex.origin_ne hsame⟩
    · exact h.origin_ne hg' hx' hy hxy hsame
    · exact h.origin_ne hg hx hy' hxy hsame

/-- With plain origins, a group has every index that can be exchanged with all its members. -/
theorem mem_of_exchanges (h : c.AntisymmetrizedBy role groups) (hplain : c.PlainOrigins role)
    (hg : g ∈ groups) (hy : ∀ x ∈ g, x ≠ y → c.Exchanges role x y) : y ∈ g := by
  by_contra hyg
  obtain ⟨x, hx, hyx⟩ := h.settled.exists_not_related hplain.fanless hg hyg
  exact hyx (hy x hx fun heq => hyg (heq ▸ hx)).symm

/-- With plain origins, each largest set lies inside a group. -/
theorem exists_group_of_maximal (h : c.AntisymmetrizedBy role groups)
    (hplain : c.PlainOrigins role) (hk : c.MaximalExchange role k) :
    ∃ g ∈ groups, ∀ z ∈ k, z ∈ g :=
  h.settled.exists_group_of_clique hplain.fanless (k := {z | z ∈ k}) hk.exchanges
    hk.exists_exchanges

/-- **With plain origins the groups are the largest sets of exchangeable indices.** -/
theorem mem_toFinset_iff (h : c.AntisymmetrizedBy role groups) (hplain : c.PlainOrigins role) :
    k ∈ groups.map List.toFinset ↔ c.MaximalExchange role k := by
  rw [List.mem_map]
  constructor
  · rintro ⟨g, hg, rfl⟩
    constructor
    case exchanges =>
      intro x hx y hy hxy
      exact h.exchanges hg (List.mem_toFinset.mp hx) (List.mem_toFinset.mp hy) hxy
    case exists_exchanges =>
      simp only [List.mem_toFinset]
      exact h.exists_exchanges hg
    case maximal =>
      intro y hy
      refine List.mem_toFinset.mpr (h.mem_of_exchanges hplain hg fun x hx => ?_)
      exact hy x (List.mem_toFinset.mpr hx)
  · intro hk
    obtain ⟨g, hg, hkg⟩ := h.exists_group_of_maximal hplain hk
    refine ⟨g, hg, Finset.Subset.antisymm ?_ ?_⟩
    · intro z hz
      rw [List.mem_toFinset] at hz
      exact hk.maximal z fun w hw hwz => h.exchanges hg (hkg w hw) hz hwz
    · intro z hz
      exact List.mem_toFinset.mpr (hkg z hz)

/-- No two groups are the same set. -/
theorem nodup_toFinset (h : c.AntisymmetrizedBy role groups) :
    (groups.map List.toFinset).Nodup := by
  rw [List.Nodup, List.pairwise_map]
  refine h.not_subset.imp fun hgh heq => hgh.1 fun z hz => ?_
  rw [← List.mem_toFinset, ← heq, List.mem_toFinset]
  exact hz

end AntisymmetrizedBy
end Contraction
end TensorContraction
