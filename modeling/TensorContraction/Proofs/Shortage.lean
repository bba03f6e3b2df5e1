import Mathlib.Order.Bounds.Basic
import TensorContraction.Proofs.Arrangement

/-!
# Where arranging stops

The places are filled from the left, each with the first index of its space that is left.
Which indices have been taken so far does not matter for where this stops, only how many of
each space: the first place that cannot be filled is the first whose space has been asked for
more often, up to and including that place, than there are indices of it.

## Main definitions

* `Short` — a place whose space has been asked for too often.

## Main results

* `fillFrom_eq_error_iff` — filling stops at the first such place.
* `arrange_outcome` — what becomes of any indices and any spaces.
-/

namespace TensorContraction

variable {pool : List Index} {spaces : List Space} {s : Space} {x : Index} {position p : Nat}

/-! ### Places that come up short -/

/-- A place whose space is asked for more often by the places up to it than there are indices
of that space. -/
def Short (pool : List Index) (spaces : List Space) (place : Nat) : Prop :=
  ∃ s, spaces[place]? = some s ∧
    (pool.map (·.space)).count s < (spaces.take (place + 1)).count s

/-- Taking an index out of a pool leaves one index of its space less and all others. -/
theorem count_space_eraseP (hx : pool.find? (·.space == s) = some x) (t : Space) :
    (pool.map (·.space)).count t =
      ((pool.eraseP (·.space == s)).map (·.space)).count t + if s = t then 1 else 0 := by
  have hs : x.space = s := by simpa using List.find?_some hx
  have hperm := (perm_of_ofSpace_eq (ofSpace_cons_eraseP hx)).map (·.space)
  rw [← hperm.count_eq t, List.map_cons, List.count_cons, hs]
  simp only [beq_iff_eq]

/-- The first place has been filled, and the others come up short without its index. -/
theorem short_cons_succ_iff (hx : pool.find? (·.space == s) = some x) :
    Short pool (s :: spaces) (p + 1) ↔ Short (pool.eraseP (·.space == s)) spaces p := by
  unfold Short
  simp only [List.getElem?_cons_succ, List.take_succ_cons, List.count_cons, beq_iff_eq,
    count_space_eraseP hx, Nat.add_lt_add_iff_right]

theorem not_short_cons_zero (hx : pool.find? (·.space == s) = some x) :
    ¬ Short pool (s :: spaces) 0 := by
  rintro ⟨t, ht, hlt⟩
  obtain rfl : s = t := by simpa using ht
  rw [count_space_eraseP hx, if_pos rfl] at hlt
  simp at hlt

theorem short_cons_zero (hx : pool.find? (·.space == s) = none) :
    Short pool (s :: spaces) 0 := by
  have hnone : (pool.map (·.space)).count s = 0 := by
    rw [List.count_eq_zero, List.mem_map]
    rintro ⟨y, hy, hys⟩
    exact List.find?_eq_none.mp hx y hy (by simpa using hys)
  exact ⟨s, rfl, by simp [hnone]⟩

theorem isLeast_short_cons_iff (hx : pool.find? (·.space == s) = some x) :
    IsLeast {q | Short pool (s :: spaces) q} (p + 1) ↔
      IsLeast {q | Short (pool.eraseP (·.space == s)) spaces q} p := by
  simp only [IsLeast, mem_lowerBounds, Set.mem_ofPred_eq, short_cons_succ_iff hx]
  refine and_congr_right fun _ => ⟨fun h q hq => ?_, fun h q hq => ?_⟩
  · exact Nat.le_of_succ_le_succ (h (q + 1) ((short_cons_succ_iff hx).mpr hq))
  · cases q with
    | zero => exact absurd hq (not_short_cons_zero hx)
    | succ q => exact Nat.succ_le_succ (h q ((short_cons_succ_iff hx).mp hq))

/-! ### Filling and arranging -/

/-- **Filling stops at the first place that comes up short.** -/
theorem fillFrom_eq_error_iff {e : ArrangeError} :
    fillFrom position spaces pool = .error e ↔
      ∃ p s, IsLeast {q | Short pool spaces q} p ∧ spaces[p]? = some s ∧
        e = .missingSpace (position + p) s := by
  induction spaces generalizing position pool with
  | nil => simp [fillFrom]
  | cons s spaces ih =>
    rw [fillFrom]
    cases hx : pool.find? (·.space == s) with
    | none =>
      have hleast : IsLeast {q | Short pool (s :: spaces) q} 0 :=
        ⟨short_cons_zero hx, fun _ _ => Nat.zero_le _⟩
      constructor
      · intro h
        exact ⟨0, s, hleast, rfl, (Except.error.inj h).symm⟩
      · rintro ⟨p, t, hp, ht, rfl⟩
        obtain rfl := hp.unique hleast
        obtain rfl : s = t := by simpa using ht
        rfl
    | some x =>
      simp only [Check.map_eq_error_iff, ih]
      constructor
      · rintro ⟨p, t, hp, ht, rfl⟩
        refine ⟨p + 1, t, (isLeast_short_cons_iff hx).mpr hp, ht, ?_⟩
        rw [Nat.add_assoc, Nat.add_comm 1]
      · rintro ⟨p, t, hp, ht, rfl⟩
        cases p with
        | zero => exact absurd hp.1 (not_short_cons_zero hx)
        | succ p =>
          refine ⟨p, t, (isLeast_short_cons_iff hx).mp hp, ht, ?_⟩
          rw [Nat.add_assoc, Nat.add_comm 1]

/-- **What becomes of any indices and any spaces.**  They can be arranged exactly if there are
as many indices as spaces, and as many of each space; then there is one arrangement, and it is
returned.  Else the two numbers are reported if they differ, and the first place that comes up
short if they agree. -/
theorem arrange_outcome (indices : List Index) (spaces : List Space) :
    ((∃ ordered, arrange indices spaces = .ok ordered) ↔
      indices.length = spaces.length ∧
        ∀ s, (indices.map (·.space)).count s = spaces.count s) ∧
    (∀ ordered, arrange indices spaces = .ok ordered ↔
      Arranged indices spaces ordered ∧
        ∀ other, Arranged indices spaces other → other = ordered) ∧
    ∀ e, arrange indices spaces = .error e ↔
      indices.length ≠ spaces.length ∧ e = .lengthMismatch indices.length spaces.length ∨
        indices.length = spaces.length ∧ ∃ p s, IsLeast {q | Short indices spaces q} p ∧
          spaces[p]? = some s ∧ e = .missingSpace p s := by
  refine ⟨?_, fun ordered => ?_, fun e => ?_⟩
  · simp only [arrange_eq_ok_iff, exists_arranged_iff, List.perm_iff_count]
    refine (and_iff_right_of_imp fun h => ?_).symm
    simpa using (List.perm_iff_count.mpr h).length_eq
  · simp only [← arrange_eq_ok_iff]
    refine (and_iff_left_of_imp fun h other hother => ?_).symm
    exact Except.ok.inj (hother.symm.trans h)
  · unfold arrange
    split
    · next hlen => simp [hlen, fillFrom_eq_error_iff]
    · next hlen => simp [hlen, eq_comm]

-- the second active index is missing where it is asked for
example :
    arrange [⟨0, .occupied, 0, .creator⟩, ⟨1, .occupied, 0, .creator⟩, ⟨0, .active, 0, .creator⟩]
      [.active, .occupied, .active] = .error (.missingSpace 2 .active) := rfl

end TensorContraction
