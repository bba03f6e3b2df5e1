/-!
# Ascending lists

Finite sets are kept as strictly ascending lists: each set then has one list, and
listing a set is the same as reading it.  Sorting by a key keeps entries of equal
key in their order, so that a second sort never undoes a first.

Everything here needs a decidable order only.  That the order is total is a matter
of the statements about these functions, not of running them.

## Main definitions

* `Ascending.insert`, `Ascending.ofList`, `Ascending.union` — sets as lists.
* `Ascending.sortOn` — the stable sort by a key.
-/

namespace TensorContraction.Ascending

variable {α κ : Type}

/-! ### Sets -/

/-- Adds an element to an ascending list that may hold it already. -/
def insert [LT α] [DecidableLT α] [DecidableEq α] (x : α) : List α → List α
  | [] => [x]
  | y :: ys => if x < y then x :: y :: ys else if x = y then y :: ys else y :: insert x ys

/-- The ascending list of the elements of a list. -/
def ofList [LT α] [DecidableLT α] [DecidableEq α] (xs : List α) : List α := xs.foldr insert []

/-- The ascending list of the elements of two lists, the second ascending. -/
def union [LT α] [DecidableLT α] [DecidableEq α] (xs ys : List α) : List α := xs.foldr insert ys

section Set

variable [LT α] [DecidableLT α] [DecidableEq α]

@[simp] theorem mem_insert {x y : α} {xs : List α} : y ∈ insert x xs ↔ y = x ∨ y ∈ xs := by
  induction xs with
  | nil => simp [insert]
  | cons z zs ih =>
    unfold insert
    split
    · simp
    · split
      · next h => simp [h]
      · simp [ih, or_left_comm]

@[simp] theorem mem_union {y : α} {xs ys : List α} : y ∈ union xs ys ↔ y ∈ xs ∨ y ∈ ys := by
  induction xs with
  | nil => simp [union]
  | cons x xs ih =>
    simp only [union, List.foldr_cons, mem_insert, List.mem_cons] at ih ⊢
    rw [ih, or_assoc]

@[simp] theorem mem_ofList {y : α} {xs : List α} : y ∈ ofList xs ↔ y ∈ xs := by
  have h : y ∈ union xs [] ↔ y ∈ xs ∨ y ∈ [] := mem_union
  simpa [union, ofList] using h

end Set

/-! ### Sorting by a key -/

/-- Puts an entry in front of the first one whose key is not smaller. -/
def insertOn [LT κ] [DecidableLT κ] (key : α → κ) (x : α) : List α → List α
  | [] => [x]
  | y :: ys => if key y < key x then y :: insertOn key x ys else x :: y :: ys

/-- The entries in ascending order of their keys.  Entries of one key keep their
order, for the earlier of two is inserted later and goes in front. -/
def sortOn [LT κ] [DecidableLT κ] (key : α → κ) (xs : List α) : List α :=
  xs.foldr (insertOn key) []

section Keyed

variable [LT κ] [DecidableLT κ] (key : α → κ)

theorem insertOn_perm (x : α) (xs : List α) : (insertOn key x xs).Perm (x :: xs) := by
  induction xs with
  | nil => exact .refl _
  | cons y ys ih =>
    unfold insertOn
    split
    · exact (ih.cons y).trans (.swap x y ys)
    · exact .refl _

theorem sortOn_perm (xs : List α) : (sortOn key xs).Perm xs := by
  induction xs with
  | nil => exact .refl _
  | cons x xs ih => exact (insertOn_perm key x _).trans (ih.cons x)

end Keyed

end TensorContraction.Ascending
