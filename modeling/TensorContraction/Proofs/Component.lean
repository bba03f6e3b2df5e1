import Mathlib.Data.Fintype.Basic
import Mathlib.Logic.Relation
import Mathlib.Order.Fin.Basic
import TensorContraction.Proofs.CliqueCover

/-!
# Pairs that fall into components

Where pairs can be followed one after another without leaving them, each connected component
of the pairs is a clique.  Merging cannot stop inside such a component: sets that share a
member are kept apart by a missing pair, and here none is missing.  So the sets are the
components, and they are so for no other pairs.

## Main definitions

* `TransitivePairs` — pairs that can be followed one after another.
* `CompleteOn` — all pairs over a set.
* `Linked`, `IsComponent` — the components of pairs.

## Main results

* `eq_of_shared` — of transitive pairs, sets that share a member are equal.
* `ofPairs_components` — merging arrives at the components exactly of transitive pairs.
-/

namespace TensorContraction.Clique

variable {α : Type}

/-! ### Components -/

/-- Pairs that can be followed one after another, in whatever direction. -/
def TransitivePairs (pairs : List (α × α)) : Prop :=
  ∀ x y z, Joined pairs x y → Joined pairs y z → x ≠ z → Joined pairs x z

instance [Fintype α] [DecidableEq α] (pairs : List (α × α)) : Decidable (TransitivePairs pairs) :=
  inferInstanceAs (Decidable (∀ _ _ _, _))

/-- Pairs that are all there are over a set of elements. -/
def CompleteOn (pairs : List (α × α)) (xs : List α) : Prop :=
  ∀ x y, Joined pairs x y ↔ x ∈ xs ∧ y ∈ xs ∧ x ≠ y

instance [Fintype α] [DecidableEq α] (pairs : List (α × α)) (xs : List α) :
    Decidable (CompleteOn pairs xs) := inferInstanceAs (Decidable (∀ _ _, _))

/-- Two elements that a chain of pairs links. -/
def Linked (pairs : List (α × α)) : α → α → Prop := Relation.ReflTransGen (Joined pairs)

/-- The elements that chains of pairs link to an element of a pair, in ascending order. -/
structure IsComponent [LT α] (pairs : List (α × α)) (g : List α) : Prop where
  /-- Members are listed in ascending order. -/
  ascending : g.Pairwise (· < ·)
  /-- Members are all that chains of pairs reach from some pair. -/
  exists_pair : ∃ p ∈ pairs, ∀ z, z ∈ g ↔ Linked pairs p.1 z

section Complete

variable {pairs : List (α × α)} {xs : List α} {x z : α}

theorem CompleteOn.transitivePairs (hc : CompleteOn pairs xs) : TransitivePairs pairs := by
  intro x y z hxy hyz hxz
  exact (hc x z).mpr ⟨((hc x y).mp hxy).1, ((hc y z).mp hyz).2.1, hxz⟩

theorem CompleteOn.linked_iff (hc : CompleteOn pairs xs) (hx : x ∈ xs) :
    Linked pairs x z ↔ z ∈ xs := by
  constructor
  · intro hxz
    rcases hxz with _ | ⟨-, hyz⟩
    · exact hx
    · exact ((hc _ z).mp hyz).2.1
  · intro hz
    by_cases hxz : x = z
    · rw [hxz]
      exact .refl
    · exact .single ((hc x z).mpr ⟨hx, hz, hxz⟩)

end Complete

section Order

variable [LT α] [DecidableLT α] [DecidableEq α] [IsStrictTotalOrder α (· < ·)]
  {pairs : List (α × α)} {g h xs : List α} {x y z : α}

/-! ### Transitive pairs -/

/-- A shared member forms a pair with what each set has of its own, so no pair is missing. -/
theorem eq_of_shared (ht : TransitivePairs pairs) (hg : g ∈ ofPairs pairs)
    (hh : h ∈ ofPairs pairs) (hzg : z ∈ g) (hzh : z ∈ h) : g = h := by
  by_contra hne
  obtain ⟨x, hxg, hxh, y, hyh, hyg, hxy⟩ := exists_not_joined hg hh hne ⟨z, hzg, hzh⟩
  have hxz : Joined pairs x z := joined_of_mem hg hxg hzg fun heq => hxh (heq ▸ hzh)
  have hzy : Joined pairs z y := joined_of_mem hh hzh hyh fun heq => hyg (heq ▸ hzg)
  exact hxy (ht x z y hxz hzy fun heq => hxh (heq ▸ hyh))

theorem linked_of_mem (hg : g ∈ ofPairs pairs) (hx : x ∈ g) (hz : z ∈ g) : Linked pairs x z := by
  by_cases hxz : x = z
  · rw [hxz]
    exact .refl
  · exact .single (joined_of_mem hg hx hz hxz)

/-- A chain never leaves the set it starts in. -/
theorem mem_iff_linked (ht : TransitivePairs pairs) (hg : g ∈ ofPairs pairs) (hx : x ∈ g) :
    z ∈ g ↔ Linked pairs x z := by
  constructor
  · exact linked_of_mem hg hx
  · intro hxz
    induction hxz with
    | refl => exact hx
    | tail _ hyz ih =>
      obtain ⟨h, hh, hyh, hzh⟩ := exists_group_of_joined hyz
      rw [eq_of_shared ht hg hh ih hyh]
      exact hzh

theorem isComponent_of_mem (ht : TransitivePairs pairs) (hg : g ∈ ofPairs pairs) :
    IsComponent pairs g := by
  obtain ⟨x, hx, y, -, hxy⟩ := exists_pair_of_mem hg
  exact ⟨pairwise_lt_of_mem hg, (x, y), hxy, fun z => mem_iff_linked ht hg hx⟩

theorem mem_of_isComponent (ht : TransitivePairs pairs) (hg : IsComponent pairs g) :
    g ∈ ofPairs pairs := by
  obtain ⟨⟨x, y⟩, hxy, hmem⟩ := hg.exists_pair
  obtain ⟨h, hh, hxh, -⟩ := exists_group_of_joined (.inl hxy)
  have heq : g = h := by
    refine Ascending.eq_of_mem_iff hg.ascending (pairwise_lt_of_mem hh) fun z => ?_
    rw [hmem, mem_iff_linked ht hh hxh]
  rw [heq]
  exact hh

/-- Sets that are components hold all pairs that could be missing. -/
theorem transitivePairs_of_isComponent (hg : ∀ g ∈ ofPairs pairs, IsComponent pairs g) :
    TransitivePairs pairs := by
  intro x y z hxy hyz hxz
  obtain ⟨g, hgm, hx, hy⟩ := exists_group_of_joined hxy
  obtain ⟨p, -, hmem⟩ := (hg g hgm).exists_pair
  have hz : z ∈ g := (hmem z).mpr (.tail ((hmem y).mp hy) hyz)
  exact joined_of_mem hgm hx hz hxz

/-! ### All pairs over a set -/

theorem CompleteOn.eq_of_mem (hc : CompleteOn pairs xs) (hg : g ∈ ofPairs pairs) :
    g = Ascending.ofList xs := by
  obtain ⟨x, hx, y, -, hxy⟩ := exists_pair_of_mem hg
  have hxs : x ∈ xs := ((hc x y).mp (.inl hxy)).1
  refine Ascending.eq_of_mem_iff (pairwise_lt_of_mem hg) (Ascending.ofList_pairwise xs) ?_
  intro z
  rw [Ascending.mem_ofList, mem_iff_linked hc.transitivePairs hg hx, hc.linked_iff hxs]

theorem CompleteOn.ofPairs_eq (hc : CompleteOn pairs xs) (hnodup : xs.Nodup)
    (hlen : 2 ≤ xs.length) : ofPairs pairs = [Ascending.ofList xs] := by
  obtain ⟨x, hx, y, hy, hxy⟩ := exists_ne_of_nodup hnodup hlen
  obtain ⟨g, hg, -⟩ := exists_group_of_joined ((hc x y).mpr ⟨hx, hy, hxy⟩)
  refine Ascending.eq_of_mem_iff (ofPairs_ascending pairs) (List.pairwise_singleton _ _) ?_
  intro k
  rw [List.mem_singleton]
  constructor
  · exact hc.eq_of_mem
  · rintro rfl
    exact hc.eq_of_mem hg ▸ hg

/-- **Merging arrives at the components exactly of transitive pairs**, and all pairs over a set
form that set. -/
theorem ofPairs_components (pairs : List (α × α)) :
    (TransitivePairs pairs ↔ ∀ g, g ∈ ofPairs pairs ↔ IsComponent pairs g) ∧
      (ofPairs pairs).Pairwise (· < ·) ∧
      ∀ xs : List α, CompleteOn pairs xs → xs.Nodup → 2 ≤ xs.length →
        ofPairs pairs = [Ascending.ofList xs] := by
  refine ⟨⟨?_, ?_⟩, ofPairs_ascending pairs, fun xs hc => hc.ofPairs_eq⟩
  · intro ht g
    exact ⟨isComponent_of_mem ht, mem_of_isComponent ht⟩
  · intro hcomponents
    exact transitivePairs_of_isComponent fun g hg => (hcomponents g).mp hg

/-- A triangle and a pair apart from it. -/
def scattered : List (Fin 5 × Fin 5) := [(0, 2), (4, 3), (2, 1), (0, 1)]

theorem ofPairs_scattered_components :
    TransitivePairs scattered ∧ (∀ g, g ∈ ofPairs scattered ↔ IsComponent scattered g) ∧
      ofPairs scattered = [[0, 1, 2], [3, 4]] ∧
      ofPairs [((2 : Fin 3), 0), (1, 2), (0, 1)] = [Ascending.ofList [1, 2, 0]] := by
  have ht : TransitivePairs scattered := by decide
  exact ⟨ht, (ofPairs_components scattered).1.mp ht, by decide,
    (ofPairs_components _).2.2 [1, 2, 0] (by decide) (by decide) (by decide)⟩

end Order
end TensorContraction.Clique
