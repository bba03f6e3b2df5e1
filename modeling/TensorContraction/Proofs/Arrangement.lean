import Mathlib.Data.List.Forall2
import TensorContraction.Contraction.Arrangement
import TensorContraction.Proofs.Check

/-!
# What arranging indices means

Arranged indices run through the requested spaces and keep, within each space, the
order they came in.  These two facts leave only one list, so arranging is characterised
by them, and it succeeds whenever the spaces of the indices are the requested ones in
some order.

## Main definitions

* `ofSpace` — the indices of one space.
* `Arranged` — indices arranged to fit a run of spaces.

## Main results

* `arrange_eq_ok_iff` — `arrange` returns the arranged indices and nothing else.
* `exists_arranged_iff` — when there is an arrangement.
-/

namespace TensorContraction

/-! ### The indices of one space -/

/-- The indices of one space, in order. -/
def ofSpace (s : Space) (xs : List Index) : List Index := xs.filter (·.space == s)

@[simp] theorem ofSpace_nil (s : Space) : ofSpace s [] = [] := rfl

theorem ofSpace_cons_self (x : Index) (xs : List Index) :
    ofSpace x.space (x :: xs) = x :: ofSpace x.space xs :=
  List.filter_cons_of_pos (by simp)

theorem ofSpace_cons_of_ne {s : Space} {x : Index} (h : x.space ≠ s) (xs : List Index) :
    ofSpace s (x :: xs) = ofSpace s xs :=
  List.filter_cons_of_neg (by simpa using h)

theorem ofSpace_cons_inj {s : Space} {x : Index} {xs ys : List Index} :
    ofSpace s (x :: xs) = ofSpace s (x :: ys) ↔ ofSpace s xs = ofSpace s ys := by
  by_cases h : x.space = s
  · subst h
    rw [ofSpace_cons_self, ofSpace_cons_self, List.cons.injEq, eq_self_iff_true, true_and]
  · rw [ofSpace_cons_of_ne h, ofSpace_cons_of_ne h]

/-- Lists with the same entries of each kind have the same entries. -/
theorem perm_of_filter_eq {α κ : Type} [DecidableEq α] [DecidableEq κ] {kind : α → κ}
    {xs ys : List α} (h : ∀ k, (xs.filter fun x => kind x = k) = ys.filter fun y => kind y = k) :
    xs.Perm ys := by
  rw [List.perm_iff_count]
  intro x
  have hx : decide (kind x = kind x) = true := decide_eq_true rfl
  rw [← List.count_filter (p := fun y => decide (kind y = kind x)) hx,
    ← List.count_filter (p := fun y => decide (kind y = kind x)) (l := ys) hx, h]

/-- Lists with the same indices of each space have the same indices. -/
theorem perm_of_ofSpace_eq {xs ys : List Index} (h : ∀ s, ofSpace s xs = ofSpace s ys) :
    xs.Perm ys := perm_of_filter_eq h

/-- Moving the first index of a space to the front changes no order within a space. -/
theorem ofSpace_cons_eraseP {s : Space} {x : Index} {pool : List Index}
    (hx : pool.find? (·.space == s) = some x) (t : Space) :
    ofSpace t (x :: pool.eraseP (·.space == s)) = ofSpace t pool := by
  obtain ⟨hs, before, after, rfl, hbefore⟩ := List.find?_eq_some_iff_append.mp hx
  have hs : x.space = s := by simpa using hs
  have hnot : ∀ y ∈ before, ¬ (y.space == s) = true := fun y hy => by simpa using hbefore y hy
  rw [List.eraseP_append_right _ hnot, List.eraseP_cons_of_pos (by simpa using hs)]
  by_cases ht : x.space = t
  · -- the front part holds no index of this space
    have hempty : ofSpace t before = [] := by
      rw [ofSpace, List.filter_eq_nil_iff, ← ht, hs]
      exact hnot
    rw [ofSpace, ofSpace, List.filter_append, List.filter_cons, List.filter_append]
    change ite _ (x :: (ofSpace t before ++ _)) _ = ofSpace t before ++ _
    rw [hempty, ← ht, if_pos (beq_self_eq_true _), List.filter_cons_of_pos (by simp),
      List.nil_append, List.nil_append]
  · rw [ofSpace_cons_of_ne ht, ofSpace, ofSpace, List.filter_append, List.filter_append,
      List.filter_cons_of_neg (by simpa using ht)]

/-! ### Arrangements -/

/-- Indices of a pool arranged to fit a run of spaces. -/
structure Arranged (pool : List Index) (spaces : List Space) (ordered : List Index) : Prop where
  /-- The spaces are the requested ones, place by place. -/
  spaces_eq : ordered.map (·.space) = spaces
  /-- Within a space the order is that of the pool. -/
  stable : ∀ s, ofSpace s ordered = ofSpace s pool

namespace Arranged

variable {pool ordered rest : List Index} {spaces : List Space} {s : Space} {x : Index}

theorem perm (h : Arranged pool spaces ordered) : ordered.Perm pool := perm_of_ofSpace_eq h.stable

theorem nil_iff : Arranged [] [] ordered ↔ ordered = [] := by
  constructor
  · intro h
    exact List.map_eq_nil_iff.mp h.spaces_eq
  · rintro rfl
    exact ⟨rfl, fun _ => rfl⟩

/-- The first place takes the first index of its space, and the others are arranged
without it. -/
theorem cons_iff (hx : pool.find? (·.space == s) = some x) :
    Arranged pool (s :: spaces) ordered ↔
      ∃ rest, Arranged (pool.eraseP (·.space == s)) spaces rest ∧ x :: rest = ordered := by
  have hs : x.space = s := by simpa using List.find?_some hx
  constructor
  · intro h
    obtain ⟨hmap, hstable⟩ := h
    cases ordered with
    | nil => simp at hmap
    | cons y rest =>
      obtain ⟨hy, hrest⟩ := List.cons.inj hmap
      -- the first index of this space is `x` in the pool and `y` in the arrangement
      have hfirst := hstable s
      rw [← ofSpace_cons_eraseP hx, ← hs, ofSpace_cons_self, hs, ← hy, ofSpace_cons_self] at hfirst
      obtain ⟨rfl, -⟩ := List.cons.inj hfirst
      refine ⟨rest, ⟨hrest, fun t => ?_⟩, rfl⟩
      rw [← ofSpace_cons_inj, hstable t, ofSpace_cons_eraseP hx]
  · intro h
    obtain ⟨rest, ⟨hmap, hstable⟩, rfl⟩ := h
    refine ⟨by rw [List.map_cons, hmap, hs], fun t => ?_⟩
    rw [← ofSpace_cons_eraseP hx, ofSpace_cons_inj, hstable t]

/-- No place can be filled with a space that the pool does not have. -/
theorem not_cons (hx : pool.find? (·.space == s) = none) :
    ¬ Arranged pool (s :: spaces) ordered := by
  intro h
  obtain ⟨hmap, hstable⟩ := h
  cases ordered with
  | nil => simp at hmap
  | cons y rest =>
    obtain ⟨rfl, -⟩ := List.cons.inj hmap
    have hmem : y ∈ ofSpace y.space pool := by
      rw [← hstable, ofSpace_cons_self]
      exact List.mem_cons_self
    exact List.find?_eq_none.mp hx y (List.mem_of_mem_filter hmem) (by simp)

end Arranged

/-! ### Filling the places -/

theorem fillFrom_eq_ok_iff {position : Nat} {spaces : List Space} {pool ordered : List Index}
    (hlen : pool.length = spaces.length) :
    fillFrom position spaces pool = .ok ordered ↔ Arranged pool spaces ordered := by
  induction spaces generalizing position pool ordered with
  | nil =>
    rw [List.length_eq_zero_iff.mp hlen, Arranged.nil_iff]
    simp [fillFrom, eq_comm]
  | cons s spaces ih =>
    rw [fillFrom]
    cases hx : pool.find? (·.space == s) with
    | none => simpa using Arranged.not_cons hx
    | some x =>
      have hperm := perm_of_ofSpace_eq (ofSpace_cons_eraseP hx)
      have hlen' : (pool.eraseP (·.space == s)).length = spaces.length := by
        have := hperm.length_eq
        rw [List.length_cons, hlen, List.length_cons] at this
        omega
      rw [Arranged.cons_iff hx]
      simp only [Check.map_eq_ok_iff, ih hlen']

/-- **Arranging returns the arranged indices**, and it fails only if there are none. -/
theorem arrange_eq_ok_iff {pool ordered : List Index} {spaces : List Space} :
    arrange pool spaces = .ok ordered ↔ Arranged pool spaces ordered := by
  unfold arrange
  split
  · next hlen => exact fillFrom_eq_ok_iff hlen
  · next hlen =>
    refine iff_of_false (by simp) fun h => hlen ?_
    rw [← h.perm.length_eq, ← h.spaces_eq, List.length_map]

theorem exists_arranged_iff {pool : List Index} {spaces : List Space} :
    (∃ ordered, Arranged pool spaces ordered) ↔ (pool.map (·.space)).Perm spaces := by
  constructor
  · intro h
    obtain ⟨ordered, h⟩ := h
    rw [← h.spaces_eq]
    exact (h.perm.map _).symm
  · intro h
    induction spaces generalizing pool with
    | nil =>
      rw [List.map_eq_nil_iff.mp h.eq_nil]
      exact ⟨[], Arranged.nil_iff.mpr rfl⟩
    | cons s spaces ih =>
      -- the pool has a space for the first place, so the first such index can go there
      obtain ⟨x, hx⟩ : ∃ x, pool.find? (·.space == s) = some x := by
        obtain ⟨y, hy, hys⟩ := List.mem_map.mp (h.mem_iff.mpr List.mem_cons_self)
        exact Option.isSome_iff_exists.mp (List.find?_isSome.mpr ⟨y, hy, by simpa using hys⟩)
      have hs : x.space = s := by simpa using List.find?_some hx
      have hperm := (perm_of_ofSpace_eq (ofSpace_cons_eraseP hx)).map (·.space)
      rw [List.map_cons, hs] at hperm
      obtain ⟨rest, hrest⟩ := ih (hperm.trans h).cons_inv
      exact ⟨x :: rest, (Arranged.cons_iff hx).mpr ⟨rest, hrest, rfl⟩⟩

end TensorContraction
