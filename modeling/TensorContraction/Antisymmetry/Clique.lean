import TensorContraction.Ascending

/-!
# Merging exchangeable pairs

Whatever can be exchanged pairwise should be gathered into sets as large as
possible: sets in which any two members form a given pair.  Starting from the pairs
themselves, the first two sets that share a member and whose union is such a set
again are merged, until no two are left.

Which sets come out depends on the order in which merges are found, and so on the
order the sets are kept in: when a set is absorbed, the last set takes its place.

## Main definitions

* `Clique.seeds` — the pairs as sets.
* `Clique.Mergeable`, `Clique.merge` — one merge.
* `Clique.ofPairs` — the sets after all merges, in order.

## Main results

* `Clique.length_merge_lt` — a merge leaves fewer sets, so there are no more merges
  than pairs.
-/

namespace TensorContraction.Clique

variable {α : Type} [LT α] [DecidableLT α] [DecidableEq α]

/-! ### Pairs -/

/-- The distinct pairs, each as the set of its members.  Neither the order within a
pair nor that among pairs matters. -/
def seeds (pairs : List (α × α)) : List (List α) :=
  Ascending.ofList (pairs.map fun (x, y) => Ascending.ofList [x, y])

/-- Whether two elements form a pair. -/
def Paired (seeds : List (List α)) (x y : α) : Prop := Ascending.ofList [x, y] ∈ seeds

instance (seeds : List (List α)) (x y : α) : Decidable (Paired seeds x y) :=
  inferInstanceAs (Decidable (_ ∈ _))

/-! ### Merging two sets -/

/-- Whether one set can absorb another: they share a member, and every element that
would be added forms a pair with every member. -/
def Mergeable (seeds : List (List α)) (present added : List α) : Prop :=
  (∃ x ∈ present, x ∈ added) ∧
    ∀ new ∈ added, new ∉ present → ∀ old ∈ present, Paired seeds new old

instance (seeds : List (List α)) (present added : List α) :
    Decidable (Mergeable seeds present added) := inferInstanceAs (Decidable (_ ∧ _))

/-- The positions of the first two sets that can be merged.  The earlier absorbs the
later. -/
def firstMerge? (seeds : List (List α)) : List (List α) → Option (Nat × Nat)
  | [] => none
  | g :: gs =>
    match gs.findIdx? fun h => decide (Mergeable seeds g h) with
    | some j => some (0, j + 1)
    | none => (firstMerge? seeds gs).map fun (i, j) => (i + 1, j + 1)

/-- The list without the entry at a position, which the last entry replaces. -/
def swapRemove {β : Type} (xs : List β) (i : Nat) : List β :=
  match xs.getLast? with
  | none => []
  | some last => (xs.set i last).dropLast

/-- The sets after the one at `i` has absorbed the one at `j`.  Sets that the union
contains are dropped. -/
def merge (groups : List (List α)) (i j : Nat) : List (List α) :=
  let union := Ascending.union ((groups[j]?).getD []) ((groups[i]?).getD [])
  let others := swapRemove groups j
  let kept := fun (group : List α) => decide (¬ ∀ x ∈ group, x ∈ union)
  (others.take i).filter kept ++ union :: (others.drop (i + 1)).filter kept

/-! ### Merging all sets -/

/-- The sets after at most so many merges. -/
def mergeUpTo (seeds : List (List α)) : Nat → List (List α) → List (List α)
  | 0, groups => groups
  | n + 1, groups =>
    match firstMerge? seeds groups with
    | none => groups
    | some (i, j) => mergeUpTo seeds n (merge groups i j)

/-- Gathers pairs into sets and sorts the sets.  Each merge leaves fewer sets, so
there are no more merges than pairs. -/
def ofPairs (pairs : List (α × α)) : List (List α) :=
  let seeds := seeds pairs
  Ascending.sortOn id (mergeUpTo seeds seeds.length seeds)

/-! ### The number of sets -/

omit [LT α] [DecidableLT α] [DecidableEq α] in
theorem length_swapRemove (xs : List α) (i : Nat) : (swapRemove xs i).length = xs.length - 1 := by
  unfold swapRemove
  split
  · next h => simp [List.getLast?_eq_none_iff.1 h]
  · simp

theorem firstMerge?_lt {seeds groups : List (List α)} {i j : Nat}
    (h : firstMerge? seeds groups = some (i, j)) : i < j ∧ j < groups.length := by
  induction groups generalizing i j with
  | nil => simp [firstMerge?] at h
  | cons g gs ih =>
    unfold firstMerge? at h
    split at h
    · next k hk =>
      have := (List.findIdx?_eq_some_iff_getElem.1 hk).1
      simp only [Option.some.injEq, Prod.mk.injEq] at h
      simp only [List.length_cons]
      omega
    · simp only [Option.map_eq_some_iff, Prod.exists, Prod.mk.injEq] at h
      obtain ⟨a, b, hab, rfl, rfl⟩ := h
      have := ih hab
      simp only [List.length_cons]
      omega

theorem length_merge_lt {groups : List (List α)} {i j : Nat} (hij : i < j)
    (hj : j < groups.length) : (merge groups i j).length < groups.length := by
  simp only [merge, List.length_append, List.length_cons]
  have h₁ := List.length_filter_le (p := fun group : List α => decide (¬ ∀ x ∈ group,
    x ∈ Ascending.union ((groups[j]?).getD []) ((groups[i]?).getD [])))
    (l := (swapRemove groups j).take i)
  have h₂ := List.length_filter_le (p := fun group : List α => decide (¬ ∀ x ∈ group,
    x ∈ Ascending.union ((groups[j]?).getD []) ((groups[i]?).getD [])))
    (l := (swapRemove groups j).drop (i + 1))
  simp only [List.length_take, List.length_drop, length_swapRemove] at h₁ h₂
  omega

end TensorContraction.Clique
