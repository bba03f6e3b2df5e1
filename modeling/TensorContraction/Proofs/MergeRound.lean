import Mathlib.Data.Finset.Sym
import TensorContraction.Proofs.Clique

/-!
# One merge, and how many there are

A merge can be carried out on the list itself: the set that is absorbed is taken out, the last set
of the list fills its place, the other set is extended where it stands, and a count of positions
tells this set from those that it contains, which are dropped.  What is left is the union, once, and
all sets that it does not contain, each as often as before.

So every merge leaves fewer sets and never none.  There is one set for each pair at first, and the
merges come to an end while there are pairs left to count them by.

## Main definitions

* `mergeInPlace` — a merge on the list itself.
* `Absorbed` — what a merge leaves.
* `Merges` — so many merges, one after another.
* `pairCount` — how many pairs there are.

## Main results

* `merge_eq_mergeInPlace` — merging on the list itself is merging.
* `absorbed_merge` — what one merge leaves.
* `Merges.length_add_le` — each merge uses up a set.
* `merging_outcome` — what one merge leaves, and how many there are.
-/

namespace TensorContraction.Clique

variable {α : Type}

/-! ### Dropping entries by their positions -/

/-- The entries that pass a test, which sees how many entries it has been given before, counted from
a number on. -/
def retainFrom (position : Nat) (keep : Nat → α → Bool) : List α → List α
  | [] => []
  | x :: xs =>
    if keep position x then x :: retainFrom (position + 1) keep xs
    else retainFrom (position + 1) keep xs

theorem retainFrom_append (position : Nat) (keep : Nat → α → Bool) (xs ys : List α) :
    retainFrom position keep (xs ++ ys) =
      retainFrom position keep xs ++ retainFrom (position + xs.length) keep ys := by
  induction xs generalizing position with
  | nil => rfl
  | cons x xs ih =>
    rw [List.cons_append, retainFrom, retainFrom, ih, List.length_cons, Nat.add_right_comm,
      Nat.add_assoc]
    split <;> rfl

/-- Where the position does not matter, the test is a plain one. -/
theorem retainFrom_eq_filter {position : Nat} {keep : Nat → α → Bool} {p : α → Bool} {xs : List α}
    (h : ∀ n x, position ≤ n → n < position + xs.length → keep n x = p x) :
    retainFrom position keep xs = xs.filter p := by
  induction xs generalizing position with
  | nil => rfl
  | cons x xs ih =>
    rw [List.length_cons] at h
    rw [retainFrom, h position x (Nat.le_refl _) (by omega), List.filter_cons,
      ih fun n y hn hlt => h n y (by omega) (by omega)]

section Order

variable [LT α] [DecidableLT α] [DecidableEq α]

/-! ### One merge -/

/-- The sets after the one at `i` has absorbed the one at `j`, on the list itself. -/
def mergeInPlace (groups : List (List α)) (i j : Nat) : List (List α) :=
  let absorbed := (groups[j]?).getD []
  let extended := (swapRemove groups j).modify i (Ascending.union absorbed)
  let union := (extended[i]?).getD []
  retainFrom 0 (fun position group => position = i || !decide (∀ x ∈ group, x ∈ union)) extended

/-- What is left of some sets when a union has absorbed those that it contains. -/
structure Absorbed (groups : List (List α)) (union : List α) (after : List (List α)) : Prop where
  /-- The sets are the union and those that it does not contain. -/
  mem_iff : ∀ k, k ∈ after ↔ k = union ∨ k ∈ groups ∧ ¬ k ⊆ union
  /-- The union is listed once. -/
  count_union : after.count union = 1
  /-- Each of the others is listed as often as before. -/
  count_eq : ∀ k, ¬ k ⊆ union → after.count k = groups.count k
  /-- There are fewer sets than before. -/
  length_lt : after.length < groups.length

variable {groups after : List (List α)} {i j n : Nat} {g h : List α}

/-- **Merging on the list itself is merging.** -/
theorem merge_eq_mergeInPlace (hij : i < j) (hg : groups[i]? = some g) (hh : groups[j]? = some h) :
    merge groups i j = mergeInPlace groups i j := by
  have hg' : (swapRemove groups j)[i]? = some g := by
    rw [getElem?_swapRemove hij (List.getElem?_eq_some_iff.mp hh).1, hg]
  obtain ⟨hi, rfl⟩ := List.getElem?_eq_some_iff.mp hg'
  have hextended : (swapRemove groups j).modify i (Ascending.union h) =
      (swapRemove groups j).take i ++ Ascending.union h (swapRemove groups j)[i] ::
        (swapRemove groups j).drop (i + 1) :=
    List.modify_eq_take_cons_drop hi
  have hlength : ((swapRemove groups j).take i).length = i := by
    rw [List.length_take, Nat.min_eq_left hi.le]
  have hunion : ((swapRemove groups j).modify i (Ascending.union h))[i]? =
      some (Ascending.union h (swapRemove groups j)[i]) := by
    rw [List.getElem?_modify_eq, hg', Option.map_eq_map, Option.map_some]
  rw [merge, mergeInPlace, hg, hh, Option.getD_some, Option.getD_some, hunion, Option.getD_some,
    hextended, retainFrom_append, hlength, Nat.zero_add, retainFrom]
  -- the union stands where the count arrives at its position
  rw [if_pos (by simp), retainFrom_eq_filter, retainFrom_eq_filter]
  · intro n k hn _
    rw [decide_eq_false (show n ≠ i by omega), Bool.false_or, decide_not]
  · intro n k _ hn
    rw [hlength, Nat.zero_add] at hn
    rw [decide_eq_false hn.ne, Bool.false_or, decide_not]

/-- **A merge replaces the sets inside the union by the union**, and leaves all others alone. -/
theorem absorbed_merge (hij : i < j) (hg : groups[i]? = some g) (hh : groups[j]? = some h) :
    Absorbed groups (Ascending.union h g) (merge groups i j) where
  mem_iff _ := mem_merge_iff hij hg hh
  count_union := by
    rw [(merge_perm hij hg hh).count_eq, List.count_cons_self, List.count_eq_zero.mpr]
    intro hmem
    exact of_decide_eq_true (List.mem_filter.mp hmem).2 (List.Subset.refl _)
  count_eq k hk := by
    have hne : Ascending.union h g ≠ k := by
      rintro rfl
      exact hk (List.Subset.refl _)
    rw [(merge_perm hij hg hh).count_eq, List.count_cons_of_ne hne]
    exact List.count_filter (decide_eq_true hk)
  length_lt := length_merge_lt hij (List.getElem?_eq_some_iff.mp hh).1

/-! ### All merges -/

/-- So many merges lead from some sets to others, each of the first two sets that can be merged. -/
inductive Merges (seeds : List (List α)) : Nat → List (List α) → List (List α) → Prop
  /-- No merge. -/
  | none (groups : List (List α)) : Merges seeds 0 groups groups
  /-- A merge, and those that follow. -/
  | next {n : Nat} {groups after : List (List α)} {i j : Nat}
    (hfirst : firstMerge? seeds groups = some (i, j))
    (hrest : Merges seeds n (merge groups i j) after) : Merges seeds (n + 1) groups after

/-- **Each merge uses up a set.** -/
theorem Merges.length_add_le {seeds : List (List α)} (hm : Merges seeds n groups after) :
    after.length + n ≤ groups.length := by
  induction hm with
  | none groups => exact Nat.le_refl _
  | next hfirst _ ih =>
    obtain ⟨hij, hj⟩ := firstMerge?_lt hfirst
    have hlt := length_merge_lt hij hj
    omega

/-- The union is always left. -/
theorem Merges.ne_nil {seeds : List (List α)} (hm : Merges seeds n groups after)
    (hne : groups ≠ []) : after ≠ [] := by
  induction hm with
  | none groups => exact hne
  | next hfirst _ ih =>
    obtain ⟨g, hg, h, hh, -⟩ := mergeable_of_firstMerge? hfirst
    exact ih (List.ne_nil_of_mem ((mem_merge_iff (firstMerge?_lt hfirst).1 hg hh).mpr (.inl rfl)))

theorem exists_merges_mergeUpTo (seeds : List (List α)) (n : Nat) (groups : List (List α)) :
    ∃ k, Merges seeds k groups (mergeUpTo seeds n groups) := by
  induction n generalizing groups with
  | zero => exact ⟨0, .none groups⟩
  | succ n ih =>
    unfold mergeUpTo
    split
    · exact ⟨0, .none groups⟩
    · next i j hfirst =>
      obtain ⟨k, hk⟩ := ih (merge groups i j)
      exact ⟨k + 1, .next hfirst hk⟩

/-! ### The number of pairs -/

omit [LT α] [DecidableLT α] in
/-- The number of distinct pairs, whatever their direction. -/
def pairCount (pairs : List (α × α)) : Nat := (pairs.map fun p => s(p.1, p.2)).toFinset.card

variable [IsStrictTotalOrder α (· < ·)]

/-- The set of the elements of a pair without direction. -/
def seedOf : Sym2 α → List α :=
  Sym2.lift ⟨fun x y => Ascending.ofList [x, y],
    fun _ _ => ofList_pair_eq_iff.mpr (.inr ⟨rfl, rfl⟩)⟩

theorem seedOf_injective : Function.Injective (seedOf : Sym2 α → List α) := by
  intro p q
  induction p with
  | _ a b =>
    induction q with
    | _ x y => exact fun heq => Sym2.eq_iff.mpr (ofList_pair_eq_iff.mp heq)

/-- There is one set for each pair at first. -/
theorem length_seeds (pairs : List (α × α)) : (seeds pairs).length = pairCount pairs := by
  have hseeds : seeds pairs = Ascending.ofList ((pairs.map fun p => s(p.1, p.2)).map seedOf) := by
    rw [List.map_map]
    rfl
  have himage : ((pairs.map fun p => s(p.1, p.2)).map seedOf).toFinset =
      (pairs.map fun p => s(p.1, p.2)).toFinset.image seedOf := by
    ext s
    simp
  rw [hseeds, Ascending.length_ofList, himage, pairCount,
    Finset.card_image_of_injective _ seedOf_injective]

/-! ### What merging does -/

/-- **A merge leaves the union, once, and the sets that it does not contain**, as it does when it is
carried out on the list itself.  So pairs, of which there are any, are merged less often than there
are pairs, and some set is left. -/
theorem merging_outcome :
    (∀ (groups : List (List α)) (i j : Nat) (g h : List α), i < j →
      groups[i]? = some g → groups[j]? = some h →
        (∀ x, x ∈ Ascending.union h g ↔ x ∈ g ∨ x ∈ h) ∧
        Absorbed groups (Ascending.union h g) (merge groups i j) ∧
        merge groups i j = mergeInPlace groups i j ∧
        ((∀ k ∈ groups, k.Pairwise (· < ·)) → ∀ k ∈ merge groups i j, k.Pairwise (· < ·))) ∧
    ∀ pairs : List (α × α), 1 ≤ pairCount pairs →
      (∀ n after, Merges (seeds pairs) n (seeds pairs) after →
        n ≤ pairCount pairs - 1 ∧ after ≠ []) ∧
      (∃ n after, Merges (seeds pairs) n (seeds pairs) after ∧
        firstMerge? (seeds pairs) after = none ∧
        ofPairs pairs = Ascending.sortOn id after) ∧
      ofPairs pairs ≠ [] := by
  constructor
  · intro groups i j g h hij hg hh
    refine ⟨fun x => ?_, absorbed_merge hij hg hh, merge_eq_mergeInPlace hij hg hh,
      fun hascending k hk => ?_⟩
    · rw [Ascending.mem_union, or_comm]
    · rcases (mem_merge_iff hij hg hh).mp hk with rfl | ⟨hk, -⟩
      · exact Ascending.union_pairwise (hascending g (List.mem_of_getElem? hg))
      · exact hascending k hk
  · intro pairs hpairs
    have hbound : ∀ n after, Merges (seeds pairs) n (seeds pairs) after →
        n ≤ pairCount pairs - 1 ∧ after ≠ [] := by
      intro n after hm
      have hne : seeds pairs ≠ [] := by
        rw [← List.length_pos_iff, length_seeds]
        exact hpairs
      have hleft := hm.ne_nil hne
      have hlength := hm.length_add_le
      have hpos := List.length_pos_iff.mpr hleft
      rw [length_seeds] at hlength
      exact ⟨by omega, hleft⟩
    obtain ⟨n, hm⟩ := exists_merges_mergeUpTo (seeds pairs) (seeds pairs).length (seeds pairs)
    have hend : firstMerge? (seeds pairs) (mergeUpTo (seeds pairs) (seeds pairs).length
        (seeds pairs)) = none := firstMerge?_mergeUpTo (Nat.le_refl _)
    refine ⟨hbound, ⟨n, _, hm, hend, rfl⟩, fun hnil => (hbound n _ hm).2 ?_⟩
    exact List.nil_perm.mp (hnil ▸ Ascending.sortOn_perm id _)

/-- Three elements that are paired all round, and two pairs that only touch. -/
def crowded : List (ℕ × ℕ) := [(2, 1), (1, 3), (2, 3), (5, 2), (4, 5), (1, 2)]

/-- Two of the sets are merged, a third one goes with them and the last one changes its place. -/
theorem merging_outcome_crowded :
    seeds crowded = [[1, 2], [1, 3], [2, 3], [2, 5], [4, 5]] ∧
      merge (seeds crowded) 0 1 = [[1, 2, 3], [4, 5], [2, 5]] ∧
      Absorbed (seeds crowded) [1, 2, 3] (merge (seeds crowded) 0 1) ∧
      merge (seeds crowded) 0 1 = mergeInPlace (seeds crowded) 0 1 ∧
      pairCount crowded = 5 ∧
      (∀ n after, Merges (seeds crowded) n (seeds crowded) after → n ≤ 4 ∧ after ≠ []) ∧
      ofPairs crowded ≠ [] := by
  obtain ⟨hmerge, hloop⟩ := merging_outcome (α := ℕ)
  have hcount : pairCount crowded = 5 := by decide
  obtain ⟨-, habsorbed, hinPlace, -⟩ :=
    hmerge (seeds crowded) 0 1 [1, 2] [1, 3] (by decide) (by decide) (by decide)
  obtain ⟨hbound, -, hne⟩ := hloop crowded (by rw [hcount]; decide)
  rw [hcount] at hbound
  exact ⟨by decide, by decide, habsorbed, hinPlace, hcount, hbound, hne⟩

end Order
end TensorContraction.Clique
