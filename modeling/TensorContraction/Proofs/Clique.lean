import Mathlib.Data.List.Perm.Basic
import Mathlib.Data.Set.Insert
import TensorContraction.Antisymmetry.Clique
import TensorContraction.Proofs.Ascending

/-!
# What merging pairs arrives at

While pairs are merged, every set stays a *clique*, a set in which any two members form a
pair, and every pair stays inside some set.  Merging comes to an end when no two sets are
mergeable, and for cliques this can be said without regard to order: two sets that share a
member have members that form no pair.

## Main definitions

* `Gathered` — cliques that hold all pairs.
* `Apart` — two sets that no merge would join.

## Main results

* `paired_seeds_iff` — pairs have no direction.
* `ofPairs_congr` — and only which there are matters.
* `merge_perm` — a merge replaces all sets inside the union by the union.
* `Gathered.merge`, `Gathered.mergeUpTo` — a merge, and all merges, keep cliques that hold
  all pairs.
* `firstMerge?_mergeUpTo` — no two sets are left to be merged.
* `gathered_ofPairs`, `apart_ofPairs` — what is arrived at.
-/

namespace TensorContraction.Clique

open scoped List

variable {α : Type}

/-! ### Removing an entry -/

/-- The last entry only changes its place when it replaces another. -/
theorem swapRemove_perm {xs : List α} {j : Nat} {x : α} (h : xs[j]? = some x) :
    (x :: swapRemove xs j).Perm xs := by
  obtain ⟨hj, rfl⟩ := List.getElem?_eq_some_iff.mp h
  rcases List.eq_nil_or_concat' xs with rfl | ⟨ys, last, rfl⟩
  · simp at hj
  · simp only [swapRemove, List.getLast?_append, List.getLast?_singleton, Option.some_or]
    by_cases hlast : j < ys.length
    · -- the removed entry is not the last one
      rw [List.getElem_append_left hlast, List.set_append_left _ _ hlast, List.dropLast_concat]
      calc
        ys[j] :: ys.set j last
        _ ~ ys[j] :: last :: ys.eraseIdx j := (List.set_perm_cons_eraseIdx hlast last).cons _
        _ ~ last :: ys[j] :: ys.eraseIdx j := .swap ..
        _ ~ last :: ys := (List.getElem_cons_eraseIdx_perm hlast).cons _
        _ ~ ys ++ [last] := (List.perm_append_singleton last ys).symm
    · obtain rfl : j = ys.length := by
        rw [List.length_append, List.length_singleton] at hj
        omega
      rw [List.getElem_concat_length rfl, List.set_append_right _ _ (Nat.le_refl _), Nat.sub_self,
        List.set_cons_zero, List.dropLast_concat]
      exact (List.perm_append_singleton last ys).symm

theorem getElem?_swapRemove {xs : List α} {i j : Nat} (hij : i < j) (hj : j < xs.length) :
    (swapRemove xs j)[i]? = xs[i]? := by
  rcases List.eq_nil_or_concat' xs with rfl | ⟨ys, last, rfl⟩
  · simp at hj
  · rw [List.length_append, List.length_singleton] at hj
    simp only [swapRemove, List.getLast?_append, List.getLast?_singleton, Option.some_or]
    rw [List.getElem?_dropLast, List.length_set, List.length_append, List.length_singleton,
      if_pos (by omega), List.getElem?_set_ne (by omega)]

/-- Putting an entry in place of two that are filtered out, as a merge does. -/
theorem splice_perm {xs : List α} {i j : Nat} {x y : α} (hij : i < j) (hx : xs[i]? = some x)
    (hy : xs[j]? = some y) (p : α → Bool) (hpx : p x = false) (hpy : p y = false) {z : α} :
    ((swapRemove xs j).take i).filter p ++ z :: ((swapRemove xs j).drop (i + 1)).filter p ~
      z :: xs.filter p := by
  have hx' : (swapRemove xs j)[i]? = some x := by
    rw [getElem?_swapRemove hij (List.getElem?_eq_some_iff.mp hy).1, hx]
  obtain ⟨hi, hget⟩ := List.getElem?_eq_some_iff.mp hx'
  -- passing over `x` changes nothing, as it would not be kept
  have hsplit : (swapRemove xs j).filter p =
      ((swapRemove xs j).take i).filter p ++ ((swapRemove xs j).drop (i + 1)).filter p := by
    conv_lhs => rw [← List.take_append_drop i (swapRemove xs j), List.drop_eq_getElem_cons hi, hget]
    rw [List.filter_append, List.filter_cons_of_neg (by rw [hpx]; exact Bool.false_ne_true)]
  have hperm := (swapRemove_perm hy).filter p
  rw [List.filter_cons_of_neg (by rw [hpy]; exact Bool.false_ne_true), hsplit] at hperm
  exact List.perm_middle.trans (hperm.cons z)

section Order

variable [LT α] [DecidableLT α] [DecidableEq α]

/-! ### Merging two sets -/

theorem mergeable_of_firstMerge? {seeds groups : List (List α)} {i j : Nat}
    (h : firstMerge? seeds groups = some (i, j)) :
    ∃ g ∈ groups[i]?, ∃ k ∈ groups[j]?, Mergeable seeds g k := by
  induction groups generalizing i j with
  | nil => simp [firstMerge?] at h
  | cons g gs ih =>
    unfold firstMerge? at h
    split at h
    · next n hn =>
      obtain ⟨hlt, hmerge, -⟩ := List.findIdx?_eq_some_iff_getElem.mp hn
      obtain ⟨rfl, rfl⟩ : 0 = i ∧ n + 1 = j := by simpa using h
      refine ⟨g, rfl, gs[n], ?_, of_decide_eq_true hmerge⟩
      rw [List.getElem?_cons_succ, List.getElem?_eq_getElem hlt]
      rfl
    · -- neither of the two is the first set
      obtain ⟨⟨m, n⟩, hmn, h⟩ := Option.map_eq_some_iff.mp h
      obtain ⟨rfl, rfl⟩ : m + 1 = i ∧ n + 1 = j := by simpa using h
      exact ih hmn

theorem firstMerge?_eq_none_iff {seeds groups : List (List α)} :
    firstMerge? seeds groups = none ↔ groups.Pairwise fun g h => ¬ Mergeable seeds g h := by
  induction groups with
  | nil => simp [firstMerge?]
  | cons g gs ih =>
    rw [firstMerge?, List.pairwise_cons, ← ih]
    split
    · next n hn =>
      obtain ⟨hlt, hmerge, -⟩ := List.findIdx?_eq_some_iff_getElem.mp hn
      refine iff_of_false (by simp) fun h => ?_
      exact h.1 _ (List.getElem_mem hlt) (of_decide_eq_true hmerge)
    · next hnone =>
      rw [List.findIdx?_eq_none_iff] at hnone
      rw [Option.map_eq_none_iff, and_iff_right]
      intro h hh
      exact of_decide_eq_false (hnone h hh)

/-- **A merge replaces all sets inside the union by the union.** -/
theorem merge_perm {groups : List (List α)} {i j : Nat} {g h : List α} (hij : i < j)
    (hg : groups[i]? = some g) (hh : groups[j]? = some h) :
    merge groups i j ~
      Ascending.union h g :: groups.filter fun k => ¬ k ⊆ Ascending.union h g := by
  unfold merge
  rw [hg, hh]
  refine (splice_perm hij hg hh _ ?_ ?_).trans (.of_eq ?_)
  · exact decide_eq_false fun hng => hng fun x hx => Ascending.mem_union.mpr (.inr hx)
  · exact decide_eq_false fun hnh => hnh fun x hx => Ascending.mem_union.mpr (.inl hx)
  · rw [Option.getD_some, Option.getD_some]
    exact congrArg _ (List.filter_congr fun k _ => decide_eq_decide.mpr Iff.rfl)

theorem mem_merge_iff {groups : List (List α)} {i j : Nat} {g h k : List α} (hij : i < j)
    (hg : groups[i]? = some g) (hh : groups[j]? = some h) :
    k ∈ merge groups i j ↔
      k = Ascending.union h g ∨ k ∈ groups ∧ ¬ k ⊆ Ascending.union h g := by
  rw [(merge_perm hij hg hh).mem_iff, List.mem_cons, List.mem_filter, decide_eq_true_eq]

/-! ### Pairs -/

theorem mem_seeds_iff {pairs : List (α × α)} {s : List α} :
    s ∈ seeds pairs ↔ ∃ x y, (x, y) ∈ pairs ∧ Ascending.ofList [x, y] = s := by
  unfold seeds
  rw [Ascending.mem_ofList, List.mem_map, Prod.exists]

variable [IsStrictTotalOrder α (· < ·)]

theorem ofList_pair_eq_iff {a b x y : α} :
    Ascending.ofList [a, b] = Ascending.ofList [x, y] ↔ a = x ∧ b = y ∨ a = y ∧ b = x := by
  rw [Ascending.ofList_eq_ofList_iff, ← Set.pair_eq_pair_iff, Set.ext_iff]
  simp

/-- **Pairs have no direction.** -/
theorem paired_seeds_iff {pairs : List (α × α)} {x y : α} :
    Paired (seeds pairs) x y ↔ (x, y) ∈ pairs ∨ (y, x) ∈ pairs := by
  unfold Paired seeds
  rw [Ascending.mem_ofList, List.mem_map]
  constructor
  · intro h
    obtain ⟨⟨a, b⟩, hab, heq⟩ := h
    rcases ofList_pair_eq_iff.mp heq with ⟨rfl, rfl⟩ | ⟨rfl, rfl⟩
    · exact .inl hab
    · exact .inr hab
  · intro h
    rcases h with h | h
    · exact ⟨_, h, rfl⟩
    · exact ⟨_, h, ofList_pair_eq_iff.mpr (.inr ⟨rfl, rfl⟩)⟩

/-- **What sets come out depends on which elements form a pair**, not on the order or the
direction in which pairs are listed, nor on how often. -/
theorem ofPairs_congr {pairs pairs' : List (α × α)}
    (h : ∀ x y, (x, y) ∈ pairs ∨ (y, x) ∈ pairs ↔ (x, y) ∈ pairs' ∨ (y, x) ∈ pairs') :
    ofPairs pairs = ofPairs pairs' := by
  have hsub {ps qs : List (α × α)} (hpq : ∀ x y, (x, y) ∈ ps → (x, y) ∈ qs ∨ (y, x) ∈ qs)
      {s : List α} (hs : s ∈ seeds ps) : s ∈ seeds qs := by
    obtain ⟨x, y, hxy, rfl⟩ := mem_seeds_iff.mp hs
    rcases hpq x y hxy with hxy | hyx
    · exact mem_seeds_iff.mpr ⟨x, y, hxy, rfl⟩
    · exact mem_seeds_iff.mpr ⟨y, x, hyx, ofList_pair_eq_iff.mpr (.inr ⟨rfl, rfl⟩)⟩
  have hseeds : seeds pairs = seeds pairs' := by
    refine Ascending.eq_of_mem_iff (Ascending.ofList_pairwise _) (Ascending.ofList_pairwise _) ?_
    intro s
    exact ⟨hsub fun x y hxy => (h x y).mp (.inl hxy), hsub fun x y hxy => (h x y).mpr (.inl hxy)⟩
  rw [ofPairs, ofPairs, hseeds]

theorem Paired.symm {pairs : List (α × α)} {x y : α} (h : Paired (seeds pairs) x y) :
    Paired (seeds pairs) y x := by
  rw [paired_seeds_iff] at h ⊢
  exact h.symm

/-! ### Cliques that hold all pairs -/

/-- Sets gathered from pairs. -/
structure Gathered (seeds groups : List (List α)) : Prop where
  /-- Sets are kept as ascending lists. -/
  ascending : ∀ g ∈ groups, g.Pairwise (· < ·)
  /-- Any two members of a set form a pair. -/
  clique : ∀ g ∈ groups, ∀ x ∈ g, ∀ y ∈ g, x ≠ y → Paired seeds x y
  /-- Each pair stays inside some set. -/
  cover : ∀ s ∈ seeds, ∃ g ∈ groups, s ⊆ g
  /-- Each set has grown out of some pair. -/
  seeded : ∀ g ∈ groups, ∃ s ∈ seeds, s ⊆ g

theorem gathered_seeds (pairs : List (α × α)) : Gathered (seeds pairs) (seeds pairs) where
  ascending := by
    intro g hg
    obtain ⟨a, b, -, rfl⟩ := mem_seeds_iff.mp hg
    exact Ascending.ofList_pairwise _
  clique := by
    intro g hg x hx y hy hxy
    obtain ⟨a, b, hab, rfl⟩ := mem_seeds_iff.mp hg
    rw [paired_seeds_iff]
    simp only [Ascending.mem_ofList, List.mem_cons, List.not_mem_nil, or_false] at hx hy
    rcases hx with rfl | rfl
    · rcases hy with rfl | rfl
      · exact absurd rfl hxy
      · exact .inl hab
    · rcases hy with rfl | rfl
      · exact .inr hab
      · exact absurd rfl hxy
  cover s hs := ⟨s, hs, List.Subset.refl s⟩
  seeded s hs := ⟨s, hs, List.Subset.refl s⟩

namespace Gathered

variable {pairs : List (α × α)} {groups : List (List α)} {i j : Nat} {g h : List α}

/-- **A merge keeps cliques that hold all pairs.** -/
theorem merge (hgs : Gathered (seeds pairs) groups) (hij : i < j) (hg : groups[i]? = some g)
    (hh : groups[j]? = some h) (hm : Mergeable (seeds pairs) g h) :
    Gathered (seeds pairs) (merge groups i j) := by
  have hgmem := List.mem_of_getElem? hg
  have hhmem := List.mem_of_getElem? hh
  have hcliqueg := hgs.clique g hgmem
  have hcliqueh := hgs.clique h hhmem
  constructor
  case ascending =>
    intro k hk
    rcases (mem_merge_iff hij hg hh).mp hk with rfl | ⟨hk, -⟩
    · exact Ascending.union_pairwise (hgs.ascending g hgmem)
    · exact hgs.ascending k hk
  case clique =>
    intro k hk x hx y hy hxy
    rcases (mem_merge_iff hij hg hh).mp hk with rfl | ⟨hk, -⟩
    · -- what the merge adds to `g` forms pairs with all of `g`
      by_cases hxg : x ∈ g
      · by_cases hyg : y ∈ g
        · exact hcliqueg x hxg y hyg hxy
        · have hyh := (Ascending.mem_union.mp hy).resolve_right hyg
          exact (hm.2 y hyh hyg x hxg).symm
      · have hxh := (Ascending.mem_union.mp hx).resolve_right hxg
        by_cases hyg : y ∈ g
        · exact hm.2 x hxh hxg y hyg
        · have hyh := (Ascending.mem_union.mp hy).resolve_right hyg
          exact hcliqueh x hxh y hyh hxy
    · exact hgs.clique k hk x hx y hy hxy
  case cover =>
    intro s hs
    obtain ⟨k, hk, hsk⟩ := hgs.cover s hs
    by_cases hunion : k ⊆ Ascending.union h g
    · -- a set is dropped only for a larger one
      exact ⟨_, (mem_merge_iff hij hg hh).mpr (.inl rfl), List.Subset.trans hsk hunion⟩
    · exact ⟨k, (mem_merge_iff hij hg hh).mpr (.inr ⟨hk, hunion⟩), hsk⟩
  case seeded =>
    intro k hk
    rcases (mem_merge_iff hij hg hh).mp hk with rfl | ⟨hk, -⟩
    · obtain ⟨s, hs, hsg⟩ := hgs.seeded g hgmem
      exact ⟨s, hs, fun x hx => Ascending.mem_union.mpr (.inr (hsg hx))⟩
    · exact hgs.seeded k hk

/-- All merges keep them, as each one does. -/
theorem mergeUpTo (hgs : Gathered (seeds pairs) groups) (n : Nat) :
    Gathered (seeds pairs) (mergeUpTo (seeds pairs) n groups) := by
  -- on the merges that are left, whatever the sets are
  induction n generalizing groups with
  | zero => exact hgs
  | succ n ih =>
    unfold Clique.mergeUpTo
    split
    · exact hgs
    · next i j hij =>
      obtain ⟨g, hg, h, hh, hm⟩ := mergeable_of_firstMerge? hij
      exact ih (hgs.merge (firstMerge?_lt hij).1 hg hh hm)

omit [IsStrictTotalOrder α (· < ·)] in
theorem ne_nil (hgs : Gathered (seeds pairs) groups) (hg : g ∈ groups) : g ≠ [] := by
  obtain ⟨s, hs, hsg⟩ := hgs.seeded g hg
  obtain ⟨x, y, -, rfl⟩ := mem_seeds_iff.mp hs
  exact List.ne_nil_of_mem (hsg (Ascending.mem_ofList.mpr List.mem_cons_self))

omit [IsStrictTotalOrder α (· < ·)] in
theorem congr {groups' : List (List α)} (hgs : Gathered (seeds pairs) groups)
    (hmem : ∀ k, k ∈ groups ↔ k ∈ groups') : Gathered (seeds pairs) groups' where
  ascending k hk := hgs.ascending k ((hmem k).mpr hk)
  clique k hk := hgs.clique k ((hmem k).mpr hk)
  cover s hs := by
    obtain ⟨k, hk, hsk⟩ := hgs.cover s hs
    exact ⟨k, (hmem k).mp hk, hsk⟩
  seeded k hk := hgs.seeded k ((hmem k).mpr hk)

end Gathered

/-! ### The end of merging -/

omit [IsStrictTotalOrder α (· < ·)] in
/-- Merging as often as there are sets leaves no two sets to be merged. -/
theorem firstMerge?_mergeUpTo {seeds groups : List (List α)} {n : Nat} (hn : groups.length ≤ n) :
    firstMerge? seeds (mergeUpTo seeds n groups) = none := by
  induction n generalizing groups with
  | zero =>
    obtain rfl := List.length_eq_zero_iff.mp (Nat.le_zero.mp hn)
    rfl
  | succ n ih =>
    unfold mergeUpTo
    split
    · next hnone => exact hnone
    · next i j hij =>
      -- each merge uses up a set
      obtain ⟨hlt, hj⟩ := firstMerge?_lt hij
      have hless := length_merge_lt hlt hj
      exact ih (by omega)

/-- Two sets that no merge would join: if they share a member, each has a member of its own
that forms no pair with some member that the other has of its own. -/
def Apart (seeds : List (List α)) (g h : List α) : Prop :=
  (∃ z ∈ g, z ∈ h) → ∃ x ∈ g, x ∉ h ∧ ∃ y ∈ h, y ∉ g ∧ ¬ Paired seeds x y

theorem Apart.symm {pairs : List (α × α)} {g h : List α} (hgh : Apart (seeds pairs) g h) :
    Apart (seeds pairs) h g := by
  intro hshared
  obtain ⟨z, hzh, hzg⟩ := hshared
  obtain ⟨x, hxg, hxh, y, hyh, hyg, hxy⟩ := hgh ⟨z, hzg, hzh⟩
  exact ⟨y, hyh, hyg, x, hxg, hxh, fun hyx => hxy hyx.symm⟩

omit [IsStrictTotalOrder α (· < ·)] in
/-- Neither of two sets apart lies inside the other. -/
theorem Apart.not_subset {seeds : List (List α)} {g h : List α} (hgh : Apart seeds g h)
    (hg : g ≠ []) : ¬ g ⊆ h := by
  intro hsub
  obtain ⟨z, hz⟩ := List.exists_mem_of_ne_nil g hg
  obtain ⟨x, hxg, hxh, -⟩ := hgh ⟨z, hz, hsub hz⟩
  exact hxh (hsub hxg)

/-- That only one of two sets was asked to absorb the other does not matter: the member of the
first without a pair cannot lie in both, as the second is a clique. -/
theorem Gathered.apart {pairs : List (α × α)} {groups : List (List α)} {g h : List α}
    (hgs : Gathered (seeds pairs) groups) (hh : h ∈ groups)
    (hm : ¬ Mergeable (seeds pairs) g h) : Apart (seeds pairs) g h := by
  intro hshared
  have hadded : ¬ ∀ new ∈ h, new ∉ g → ∀ old ∈ g, Paired (seeds pairs) new old := by
    intro hall
    exact hm ⟨hshared, hall⟩
  push Not at hadded
  obtain ⟨new, hnewh, hnewg, old, holdg, hpair⟩ := hadded
  refine ⟨old, holdg, ?_, new, hnewh, hnewg, fun hp => hpair hp.symm⟩
  intro holdh
  refine hpair (hgs.clique h hh new hnewh old holdh ?_)
  intro heq
  exact hnewg (heq ▸ holdg)

variable (pairs : List (α × α))

theorem gathered_ofPairs : Gathered (seeds pairs) (ofPairs pairs) :=
  ((gathered_seeds pairs).mergeUpTo _).congr fun _ => (Ascending.mem_sortOn id).symm

/-- **The sets that pairs form are apart.** -/
theorem apart_ofPairs : (ofPairs pairs).Pairwise (Apart (seeds pairs)) := by
  unfold ofPairs
  rw [(Ascending.sortOn_perm id _).pairwise_iff Apart.symm]
  have hgs := (gathered_seeds pairs).mergeUpTo (seeds pairs).length
  have hnone : firstMerge? (seeds pairs) (mergeUpTo (seeds pairs) (seeds pairs).length
      (seeds pairs)) = none :=
    firstMerge?_mergeUpTo (Nat.le_refl _)
  exact (firstMerge?_eq_none_iff.mp hnone).imp_of_mem fun _ hh hm => hgs.apart hh hm

end Order
end TensorContraction.Clique
