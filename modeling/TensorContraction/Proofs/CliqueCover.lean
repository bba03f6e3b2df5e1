import Mathlib.Data.List.Pairwise
import TensorContraction.Proofs.Clique

/-!
# Covering pairs by cliques

Pairs are the edges of a graph without directions.  The sets that merging arrives at are
cliques of this graph, and each edge lies inside one of them.  They need not be disjoint and
need not be the largest cliques there are, but no two of them could be joined to a clique:
sets that share a member are kept apart by a missing edge.

## Main definitions

* `Joined` — two elements that form a pair, in whatever direction.
* `CliqueCover` — cliques that cover pairs and that no merge would join.
* `SamePairs` — lists of the same pairs.

## Main results

* `joined_of_mem`, `exists_group_of_joined` — distinct elements are together in a set exactly
  if they form a pair.
* `cliqueCover_ofPairs` — merging arrives at such a cover.
* `ofPairs_of_samePairs` — which one depends on the pairs alone, and tells them.
-/

namespace TensorContraction.Clique

variable {α : Type}

/-! ### Edges -/

/-- Two elements that form a pair, in either direction. -/
def Joined (pairs : List (α × α)) (x y : α) : Prop := (x, y) ∈ pairs ∨ (y, x) ∈ pairs

instance [DecidableEq α] (pairs : List (α × α)) (x y : α) : Decidable (Joined pairs x y) :=
  inferInstanceAs (Decidable (_ ∨ _))

theorem Joined.symm {pairs : List (α × α)} {x y : α} (h : Joined pairs x y) :
    Joined pairs y x := Or.symm h

/-- Lists of the same pairs, in whatever order, direction and number. -/
def SamePairs (pairs pairs' : List (α × α)) : Prop :=
  (∀ p ∈ pairs, p ∈ pairs' ∨ p.swap ∈ pairs') ∧ ∀ p ∈ pairs', p ∈ pairs ∨ p.swap ∈ pairs

instance [DecidableEq α] (pairs pairs' : List (α × α)) : Decidable (SamePairs pairs pairs') :=
  inferInstanceAs (Decidable (_ ∧ _))

theorem SamePairs.joined_iff {pairs pairs' : List (α × α)} (h : SamePairs pairs pairs') (x y : α) :
    Joined pairs x y ↔ Joined pairs' x y := by
  have hsub {ps qs : List (α × α)} (hpq : ∀ p ∈ ps, p ∈ qs ∨ p.swap ∈ qs)
      (hxy : Joined ps x y) : Joined qs x y := by
    rcases hxy with hxy | hyx
    · exact hpq _ hxy
    · exact (hpq _ hyx).symm
  exact ⟨hsub h.1, hsub h.2⟩

/-! ### The sets that pairs form -/

section Order

variable [LT α] [DecidableLT α] [DecidableEq α]

/-- Cliques that cover pairs and that no merge would join. -/
structure CliqueCover (pairs : List (α × α)) (groups : List (List α)) : Prop where
  /-- Members are listed in ascending order. -/
  members_ascending : ∀ g ∈ groups, g.Pairwise (· < ·)
  /-- Any two distinct members form a pair. -/
  joined : ∀ g ∈ groups, ∀ x ∈ g, ∀ y ∈ g, x ≠ y → Joined pairs x y
  /-- The two elements of a pair are together in some set. -/
  cover : ∀ p ∈ pairs, ∃ g ∈ groups, p.1 ∈ g ∧ p.2 ∈ g
  /-- Each set has grown out of some pair. -/
  seeded : ∀ g ∈ groups, ∃ p ∈ pairs, p.1 ∈ g ∧ p.2 ∈ g
  /-- No set lies inside another. -/
  not_subset : ∀ g ∈ groups, ∀ h ∈ groups, g ≠ h → ¬ g ⊆ h
  /-- Different sets that share a member have members of their own that form no pair. -/
  unmergeable : ∀ g ∈ groups, ∀ h ∈ groups, g ≠ h → (∃ z ∈ g, z ∈ h) →
    ∃ x ∈ g, x ∉ h ∧ ∃ y ∈ h, y ∉ g ∧ ¬ Joined pairs x y
  /-- Sets are listed in ascending order, compared from their least members on. -/
  ascending : groups.Pairwise (· < ·)

variable [IsStrictTotalOrder α (· < ·)] {pairs pairs' : List (α × α)} {g h : List α} {x y : α}

theorem pairwise_lt_of_mem (hg : g ∈ ofPairs pairs) : g.Pairwise (· < ·) :=
  (gathered_ofPairs pairs).ascending g hg

theorem joined_of_mem (hg : g ∈ ofPairs pairs) (hx : x ∈ g) (hy : y ∈ g) (hxy : x ≠ y) :
    Joined pairs x y :=
  paired_seeds_iff.mp ((gathered_ofPairs pairs).clique g hg x hx y hy hxy)

theorem exists_group_of_joined (hxy : Joined pairs x y) : ∃ g ∈ ofPairs pairs, x ∈ g ∧ y ∈ g := by
  obtain ⟨g, hg, hsub⟩ := (gathered_ofPairs pairs).cover _ (paired_seeds_iff.mpr hxy)
  refine ⟨g, hg, hsub ?_, hsub ?_⟩
  · exact Ascending.mem_ofList.mpr List.mem_cons_self
  · exact Ascending.mem_ofList.mpr (List.mem_cons_of_mem _ List.mem_cons_self)

theorem exists_pair_of_mem (hg : g ∈ ofPairs pairs) : ∃ x ∈ g, ∃ y ∈ g, (x, y) ∈ pairs := by
  obtain ⟨s, hs, hsub⟩ := (gathered_ofPairs pairs).seeded g hg
  obtain ⟨x, y, hxy, rfl⟩ := mem_seeds_iff.mp hs
  refine ⟨x, hsub ?_, y, hsub ?_, hxy⟩
  · exact Ascending.mem_ofList.mpr List.mem_cons_self
  · exact Ascending.mem_ofList.mpr (List.mem_cons_of_mem _ List.mem_cons_self)

theorem apart_of_ne (hg : g ∈ ofPairs pairs) (hh : h ∈ ofPairs pairs) (hne : g ≠ h) :
    Apart (seeds pairs) g h := by
  have hsymm : Std.Symm (Apart (seeds pairs)) := ⟨fun _ _ => Apart.symm⟩
  exact (apart_ofPairs pairs).forall hg hh hne

/-- Different sets that share a member are kept apart by a missing pair. -/
theorem exists_not_joined (hg : g ∈ ofPairs pairs) (hh : h ∈ ofPairs pairs) (hne : g ≠ h)
    (hshared : ∃ z ∈ g, z ∈ h) : ∃ x ∈ g, x ∉ h ∧ ∃ y ∈ h, y ∉ g ∧ ¬ Joined pairs x y := by
  obtain ⟨x, hxg, hxh, y, hyh, hyg, hxy⟩ := apart_of_ne hg hh hne hshared
  exact ⟨x, hxg, hxh, y, hyh, hyg, fun hjoined => hxy (paired_seeds_iff.mpr hjoined)⟩

theorem not_subset_of_ne (hg : g ∈ ofPairs pairs) (hh : h ∈ ofPairs pairs) (hne : g ≠ h) :
    ¬ g ⊆ h :=
  (apart_of_ne hg hh hne).not_subset ((gathered_ofPairs pairs).ne_nil hg)

/-- No set is listed twice, for a set that was would lie inside another one. -/
theorem ofPairs_ascending (pairs : List (α × α)) : (ofPairs pairs).Pairwise (· < ·) := by
  have hsorted : (ofPairs pairs).Pairwise fun g h => ¬ h < g := Ascending.sortOn_pairwise id _
  refine (hsorted.and (apart_ofPairs pairs)).imp_of_mem ?_
  rintro g h hg - ⟨hle, hapart⟩
  have hne : g ≠ h := by
    rintro rfl
    exact hapart.not_subset ((gathered_ofPairs pairs).ne_nil hg) (List.Subset.refl g)
  rcases trichotomous_of ((· < ·) : List α → List α → Prop) g h with hlt | heq | hgt
  · exact hlt
  · exact absurd heq hne
  · exact absurd hgt hle

/-- **Merging arrives at cliques that cover all pairs and that no merge would join.** -/
theorem cliqueCover_ofPairs (pairs : List (α × α)) : CliqueCover pairs (ofPairs pairs) where
  members_ascending g hg := pairwise_lt_of_mem hg
  joined g hg x hx y hy hxy := joined_of_mem hg hx hy hxy
  cover p hp := exists_group_of_joined (.inl hp)
  seeded := by
    intro g hg
    obtain ⟨x, hx, y, hy, hxy⟩ := exists_pair_of_mem hg
    exact ⟨(x, y), hxy, hx, hy⟩
  not_subset g hg h hh hne := not_subset_of_ne hg hh hne
  unmergeable g hg h hh hne hshared := exists_not_joined hg hh hne hshared
  ascending := ofPairs_ascending pairs

/-- A triangle with a tail, and an element that is paired with itself only. -/
def tailed : List (ℕ × ℕ) := [(3, 1), (1, 3), (1, 2), (4, 4), (3, 2), (2, 4), (5, 5)]

theorem cliqueCover_tailed :
    ofPairs tailed = [[1, 2, 3], [2, 4], [5]] ∧ CliqueCover tailed (ofPairs tailed) :=
  ⟨by decide, cliqueCover_ofPairs tailed⟩

/-! ### The pairs that sets tell -/

/-- Two distinct elements form a pair exactly if some set holds both. -/
theorem joined_iff_exists_group (hxy : x ≠ y) :
    Joined pairs x y ↔ ∃ g ∈ ofPairs pairs, x ∈ g ∧ y ∈ g := by
  constructor
  · exact exists_group_of_joined
  · rintro ⟨g, hg, hx, hy⟩
    exact joined_of_mem hg hx hy hxy

/-- **The sets depend on which pairs there are and on nothing else**, and they tell which
distinct elements form a pair. -/
theorem ofPairs_of_samePairs (pairs pairs' : List (α × α)) :
    (SamePairs pairs pairs' → ofPairs pairs = ofPairs pairs') ∧
      (ofPairs pairs = ofPairs pairs' →
        ∀ x y, x ≠ y → (Joined pairs x y ↔ Joined pairs' x y)) := by
  constructor
  · intro hsame
    exact ofPairs_congr hsame.joined_iff
  · intro heq x y hxy
    rw [joined_iff_exists_group hxy, joined_iff_exists_group hxy, heq]

theorem ofPairs_tailed_turned :
    SamePairs tailed [(5, 5), (2, 1), (2, 4), (2, 3), (4, 4), (1, 3), (4, 2)] ∧
      ofPairs tailed = ofPairs [(5, 5), (2, 1), (2, 4), (2, 3), (4, 4), (1, 3), (4, 2)] :=
  ⟨by decide, (ofPairs_of_samePairs _ _).1 (by decide)⟩

end Order
end TensorContraction.Clique
