import Mathlib.Data.Fintype.Basic
import Mathlib.Data.Set.Finite.Basic
import Mathlib.Order.Fin.Basic
import Mathlib.Order.Preorder.Finite
import TensorContraction.Proofs.CliqueCover

/-!
# When merging reaches the maximal cliques

A set grows only by absorbing other sets, so an element that would still fit into it can be left
out: what joins the element to the members may have gone into other sets by then.  This takes a
*fan*, four elements in a row each of which forms a pair with the next but not with the one after,
and a fifth that forms pairs with all four.  The two in the middle are in the set that stays
behind, and the fifth is the element left out.

Where pairs form no fan, the sets are exactly the maximal cliques, in whatever order they are
merged.  The argument needs only that the sets cover a relation and are kept apart by it, so it
holds of the groups of a contraction as well.

## Main definitions

* `Settled` — sets that cover a relation and that no merge would join.
* `Fan`, `Fanless` — a fan, and relations that have none.
* `MaximalClique` — a maximal clique of pairs.

## Main results

* `Settled.exists_fan` — an element left out is the hub of a fan.
* `Settled.exists_group_of_clique` — without fans each clique is inside some set.
* `mem_ofPairs_iff_maximalClique` — without fans merging arrives at the maximal cliques.
* `not_forall_maximal` — with a fan it need not.
-/

namespace TensorContraction.Clique

variable {α : Type}

/-! ### Fans -/

/-- Four elements in a row, the ends of which may be related too, and a hub related to all
four. -/
structure Fan (r : α → α → Prop) (hub a b c d : α) : Prop where
  /-- The hub is related to each of the four. -/
  spokes : ∀ x ∈ [a, b, c, d], r hub x
  /-- Neighbours in the row are related. -/
  row : r a b ∧ r b c ∧ r c d
  /-- The first and the third are not. -/
  left_gap : a ≠ c ∧ ¬ r a c
  /-- Nor are the second and the fourth. -/
  right_gap : b ≠ d ∧ ¬ r b d

/-- A relation without fans. -/
def Fanless (r : α → α → Prop) : Prop := ∀ hub a b c d, ¬ Fan r hub a b c d

section Decidable

variable [DecidableEq α] (r : α → α → Prop) [DecidableRel r]

instance (hub a b c d : α) : Decidable (Fan r hub a b c d) :=
  decidable_of_iff ((∀ x ∈ [a, b, c, d], r hub x) ∧ (r a b ∧ r b c ∧ r c d) ∧
      (a ≠ c ∧ ¬ r a c) ∧ b ≠ d ∧ ¬ r b d)
    ⟨fun ⟨hspokes, hrow, hleft, hright⟩ => ⟨hspokes, hrow, hleft, hright⟩,
      fun h => ⟨h.spokes, h.row, h.left_gap, h.right_gap⟩⟩

instance [Fintype α] : Decidable (Fanless r) := inferInstanceAs (Decidable (∀ _ _ _ _ _, _))

end Decidable

/-! ### Sets that no merge would join -/

/-- Cliques of a relation that cover it and that no merge would join. -/
structure Settled (r : α → α → Prop) (groups : List (List α)) : Prop where
  /-- The relation has no direction. -/
  symm : ∀ x y, r x y → r y x
  /-- Any two distinct members of a set are related. -/
  clique : ∀ g ∈ groups, ∀ x ∈ g, ∀ y ∈ g, x ≠ y → r x y
  /-- Related elements are together in some set. -/
  cover : ∀ x y, r x y → ∃ g ∈ groups, x ∈ g ∧ y ∈ g
  /-- No set is without related elements. -/
  exists_related : ∀ g ∈ groups, ∃ x ∈ g, ∃ y ∈ g, r x y
  /-- Different sets that share a member have members of their own that are not related. -/
  exists_gap : ∀ g ∈ groups, ∀ h ∈ groups, g ≠ h → (∃ z ∈ g, z ∈ h) →
    ∃ x ∈ g, x ∉ h ∧ ∃ y ∈ h, y ∉ g ∧ ¬ r x y

/-- The elements outside a set that are related to two given ones. -/
def sharedOutside (r : α → α → Prop) (g : List α) (x y : α) : Set α :=
  {z | z ∉ g ∧ r x z ∧ r y z}

namespace Settled

variable {r : α → α → Prop} {groups : List (List α)} {g h : List α} {v x y z : α}

/-! #### An element left out -/

/-- Some set holds the element left out together with a given member, and a missing relation has
kept it apart. -/
theorem exists_outside (hs : Settled r groups) (hg : g ∈ groups) (hv : v ∉ g)
    (hall : ∀ x ∈ g, r v x) (hx : x ∈ g) :
    ∃ c ∈ g, ∃ a ∈ sharedOutside r g v x, ¬ r a c := by
  obtain ⟨h, hh, hvh, hxh⟩ := hs.cover v x (hall x hx)
  have hne : g ≠ h := fun heq => hv (heq ▸ hvh)
  obtain ⟨c, hcg, -, a, hah, hag, hca⟩ := hs.exists_gap g hg h hh hne ⟨x, hx, hxh⟩
  have hva : v ≠ a := fun heq => hca (heq ▸ hs.symm _ _ (hall c hcg))
  have hxa : x ≠ a := fun heq => hag (heq ▸ hx)
  exact ⟨c, hcg, a, ⟨hag, hs.clique h hh v hvh a hah hva, hs.clique h hh x hxh a hah hxa⟩,
    fun hac => hca (hs.symm _ _ hac)⟩

/-- **An element left out is the hub of a fan**, with two members in the middle. -/
theorem exists_fan (hs : Settled r groups) (hg : g ∈ groups) (hv : v ∉ g)
    (hall : ∀ x ∈ g, r v x) : ∃ a, ∃ b ∈ g, ∃ c ∈ g, ∃ d, Fan r v a b c d := by
  obtain ⟨z, hz, -⟩ := hs.exists_related g hg
  -- a member that shares as little as possible with the element left out
  obtain ⟨b, hb, hmin⟩ := Set.Finite.exists_minimalFor (sharedOutside r g v) {x | x ∈ g}
    g.finite_toSet ⟨z, hz⟩
  obtain ⟨c, hc, a, ⟨hag, hva, hba⟩, hac⟩ := hs.exists_outside hg hv hall hb
  have hnot : ¬ sharedOutside r g v c ⊆ sharedOutside r g v b := by
    intro hsub
    obtain ⟨-, -, hca⟩ := hmin hc hsub ⟨hag, hva, hba⟩
    exact hac (hs.symm _ _ hca)
  obtain ⟨d, ⟨hdg, hvd, hcd⟩, hdb⟩ := Set.not_subset.mp hnot
  have hbc : b ≠ c := fun heq => hac (heq ▸ hs.symm _ _ hba)
  refine ⟨a, b, hb, c, hc, d, ?_, ?_, ?_, ?_⟩
  · simp only [List.forall_mem_cons]
    exact ⟨hva, hall b hb, hall c hc, hvd, List.forall_mem_nil _⟩
  · exact ⟨hs.symm _ _ hba, hs.clique g hg b hb c hc hbc, hcd⟩
  · exact ⟨fun heq => hag (heq ▸ hc), hac⟩
  · exact ⟨fun heq => hdg (heq ▸ hb), fun hbd => hdb ⟨hdg, hvd, hbd⟩⟩

/-- Without fans no element is left out. -/
theorem exists_not_related (hs : Settled r groups) (hf : Fanless r) (hg : g ∈ groups)
    (hv : v ∉ g) : ∃ x ∈ g, ¬ r v x := by
  by_contra hall
  push Not at hall
  obtain ⟨a, b, -, c, -, d, hfan⟩ := hs.exists_fan hg hv hall
  exact hf v a b c d hfan

/-! #### A clique left out -/

/-- Two sets around one element make a fan with it if a member that only the first has and one
that only the second has are related, for neither of the two fits into the other set. -/
theorem not_related (hs : Settled r groups) (hf : Fanless r) (hg : g ∈ groups) (hh : h ∈ groups)
    (hxg : x ∈ g) (hxh : x ∈ h) (hyg : y ∈ g) (hyh : y ∉ h) (hzh : z ∈ h) (hzg : z ∉ g) :
    ¬ r y z := by
  intro hyz
  obtain ⟨w, hw, hzw⟩ := hs.exists_not_related hf hg hzg
  obtain ⟨t, ht, hyt⟩ := hs.exists_not_related hf hh hyh
  have hxy : r x y := hs.clique g hg x hxg y hyg fun heq => hyh (heq ▸ hxh)
  have hxz : r x z := hs.clique h hh x hxh z hzh fun heq => hzg (heq ▸ hxg)
  have hxw : r x w := hs.clique g hg x hxg w hw fun heq => hzw (heq ▸ hs.symm _ _ hxz)
  have hxt : r x t := hs.clique h hh x hxh t ht fun heq => hyt (heq ▸ hs.symm _ _ hxy)
  refine hf x w y z t ⟨?_, ⟨?_, hyz, ?_⟩, ⟨?_, ?_⟩, ?_, hyt⟩
  · simp only [List.forall_mem_cons]
    exact ⟨hxw, hxy, hxz, hxt, List.forall_mem_nil _⟩
  · exact hs.clique g hg w hw y hyg fun heq => hzw (heq ▸ hs.symm _ _ hyz)
  · exact hs.clique h hh z hzh t ht fun heq => hyt (heq ▸ hyz)
  · exact fun heq => hzg (heq ▸ hw)
  · exact fun hwz => hzw (hs.symm _ _ hwz)
  · exact fun heq => hyh (heq ▸ ht)

/-- **Without fans each clique is inside some set**: inside the one that has most of it among
those around one of its members. -/
theorem exists_group_of_clique (hs : Settled r groups) (hf : Fanless r) {k : Set α}
    (hk : ∀ x ∈ k, ∀ y ∈ k, x ≠ y → r x y) (hrelated : ∃ x ∈ k, ∃ y ∈ k, r x y) :
    ∃ g ∈ groups, ∀ z ∈ k, z ∈ g := by
  obtain ⟨x, hx, y, -, hxy⟩ := hrelated
  obtain ⟨g₀, hg₀, hxg₀, -⟩ := hs.cover x y hxy
  obtain ⟨g, ⟨hg, hxg⟩, hmax⟩ := Set.Finite.exists_maximalFor (fun g => {z | z ∈ k ∧ z ∈ g})
    {g | g ∈ groups ∧ x ∈ g} (groups.finite_toSet.subset fun _ hg => hg.1) ⟨g₀, hg₀, hxg₀⟩
  refine ⟨g, hg, fun z hz => ?_⟩
  by_contra hzg
  obtain ⟨h, hh, hxh, hzh⟩ := hs.cover x z (hk x hx z hz fun heq => hzg (heq ▸ hxg))
  -- the set that joins `z` to `x` has `z`, so it must lack something else of the clique
  have hnot : ¬ {w | w ∈ k ∧ w ∈ g} ⊆ {w | w ∈ k ∧ w ∈ h} := by
    intro hsub
    exact hzg (hmax ⟨hh, hxh⟩ hsub ⟨hz, hzh⟩).2
  obtain ⟨w, ⟨hwk, hwg⟩, hwh⟩ := Set.not_subset.mp hnot
  refine hs.not_related hf hg hh hxg hxh hwg (fun h => hwh ⟨hwk, h⟩) hzh hzg ?_
  exact hk w hwk z hz fun heq => hzg (heq ▸ hwg)

end Settled

/-! ### The sets that pairs form -/

/-- A set with a pair in it, any two members of which form a pair, as large as possible. -/
structure MaximalClique [LT α] (pairs : List (α × α)) (g : List α) : Prop where
  /-- Members are listed in ascending order. -/
  ascending : g.Pairwise (· < ·)
  /-- Any two distinct members form a pair. -/
  joined : ∀ x ∈ g, ∀ y ∈ g, x ≠ y → Joined pairs x y
  /-- Some pair is in the set. -/
  exists_pair : ∃ x ∈ g, ∃ y ∈ g, (x, y) ∈ pairs
  /-- No further element forms a pair with every member. -/
  maximal : ¬ ∃ v, v ∉ g ∧ ∀ x ∈ g, Joined pairs v x

section Order

variable [LT α] [DecidableLT α] [DecidableEq α] [IsStrictTotalOrder α (· < ·)]
  {pairs : List (α × α)} {g : List α}

theorem settled_ofPairs (pairs : List (α × α)) : Settled (Joined pairs) (ofPairs pairs) where
  symm _ _ := Joined.symm
  clique _ hg _ hx _ hy hxy := joined_of_mem hg hx hy hxy
  cover _ _ hxy := exists_group_of_joined hxy
  exists_related := by
    intro g hg
    obtain ⟨x, hx, y, hy, hxy⟩ := exists_pair_of_mem hg
    exact ⟨x, hx, y, hy, .inl hxy⟩
  exists_gap _ hg _ hh hne hshared := exists_not_joined hg hh hne hshared

theorem maximalClique_of_mem (hf : Fanless (Joined pairs)) (hg : g ∈ ofPairs pairs) :
    MaximalClique pairs g where
  ascending := pairwise_lt_of_mem hg
  joined _ hx _ hy hxy := joined_of_mem hg hx hy hxy
  exists_pair := exists_pair_of_mem hg
  maximal := by
    rintro ⟨v, hv, hall⟩
    obtain ⟨x, hx, hvx⟩ := (settled_ofPairs pairs).exists_not_related hf hg hv
    exact hvx (hall x hx)

theorem mem_of_maximalClique (hf : Fanless (Joined pairs)) (hg : MaximalClique pairs g) :
    g ∈ ofPairs pairs := by
  obtain ⟨x, hx, y, hy, hxy⟩ := hg.exists_pair
  obtain ⟨h, hh, hgh⟩ := (settled_ofPairs pairs).exists_group_of_clique hf (k := {z | z ∈ g})
    hg.joined ⟨x, hx, y, hy, .inl hxy⟩
  have hhg : ∀ z ∈ h, z ∈ g := by
    intro z hz
    by_contra hzg
    refine hg.maximal ⟨z, hzg, fun w hw => ?_⟩
    exact joined_of_mem hh hz (hgh w hw) fun heq => hzg (heq ▸ hw)
  have heq : g = h := Ascending.eq_of_mem_iff hg.ascending (pairwise_lt_of_mem hh) fun z =>
    ⟨hgh z, hhg z⟩
  exact heq ▸ hh

/-- **Without fans merging arrives at the maximal cliques.** -/
theorem mem_ofPairs_iff_maximalClique (hf : Fanless (Joined pairs)) (g : List α) :
    g ∈ ofPairs pairs ↔ MaximalClique pairs g :=
  ⟨maximalClique_of_mem hf, mem_of_maximalClique hf⟩

/-- Two triangles with a common side. -/
def diamond : List (Fin 4 × Fin 4) := [(2, 0), (0, 1), (1, 2), (3, 1), (2, 3)]

theorem diamond_maximalCliques :
    Fanless (Joined diamond) ∧ ofPairs diamond = [[0, 1, 2], [1, 2, 3]] ∧
      ∀ g, g ∈ ofPairs diamond ↔ MaximalClique diamond g := by
  have hf : Fanless (Joined diamond) := by decide +kernel
  exact ⟨hf, by decide, fun g => mem_ofPairs_iff_maximalClique hf g⟩

/-- Three triangles around `0`, the middle one of which has sides in common with the other two. -/
def fan : List (ℕ × ℕ) := [(0, 1), (0, 2), (0, 3), (0, 4), (1, 3), (1, 4), (2, 4)]

/-- **The sets need not be as large as possible.**  In a fan the triangles on either side take the
hub away from the one in the middle. -/
theorem not_forall_maximal :
    ¬ ∀ pairs : List (ℕ × ℕ), ∀ g ∈ ofPairs pairs, ¬ ∃ v, v ∉ g ∧ ∀ x ∈ g, Joined pairs v x := by
  intro h
  have hmem : [1, 4] ∈ ofPairs fan := by decide
  exact h fan [1, 4] hmem ⟨0, by decide, by decide⟩

end Order
end TensorContraction.Clique
