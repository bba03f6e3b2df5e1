import Mathlib.Algebra.BigOperators.Group.List.Basic
import Mathlib.Algebra.Order.BigOperators.Ring.List
import Mathlib.Algebra.Order.Ring.Nat
import Mathlib.Data.Nat.Factorial.Basic
import TensorContraction.Proofs.Exchange

/-!
# What is implied and what is required

Once pairs have been found in each slot, a contraction has one candidate for its
symmetrization, and all that can still go wrong is the ratio of two products of factorials:
what listing the indices implies has to be a multiple of what the groups require.

## Main definitions

* `Symmetrization.ofFound` — the candidate that found pairs make.

## Main results

* `Symmetrization.orders_eq_prod` — a count of orders is a product of factorials.
* `Symmetrization.ofContraction_eq_ok_iff_dvd` — the candidate succeeds if the ratio is whole.
-/

namespace TensorContraction.Symmetrization

/-! ### Orders of lists -/

section Orders

variable {α : Type} {lists lists' : List (List α)}

theorem factorial_eq (n : Nat) : factorial n = n.factorial := by
  induction n with
  | zero => rfl
  | succ n ih => rw [factorial, ih, Nat.factorial_succ]

theorem orders_eq_prod (lists : List (List α)) :
    orders lists = (lists.map fun l => l.length.factorial).prod := by
  simp only [orders, factorial_eq]
  rfl

theorem orders_pos (lists : List (List α)) : 0 < orders lists := by
  rw [orders_eq_prod, CanonicallyOrderedAdd.list_prod_pos]
  intro n hn
  obtain ⟨l, -, rfl⟩ := List.mem_map.mp hn
  exact Nat.factorial_pos l.length

theorem orders_append (lists lists' : List (List α)) :
    orders (lists ++ lists') = orders lists * orders lists' := by
  simp only [orders_eq_prod, List.map_append, List.prod_append]

theorem orders_eq_of_perm (h : lists.Perm lists') : orders lists = orders lists' := by
  rw [orders_eq_prod, orders_eq_prod]
  exact (h.map _).prod_eq

/-- Only lengths are counted. -/
theorem orders_congr (h : lists.map List.length = lists'.map List.length) :
    orders lists = orders lists' := by
  have hlength (ls : List (List α)) :
      (ls.map fun l => l.length.factorial) = (ls.map List.length).map Nat.factorial :=
    List.map_map.symm
  rw [orders_eq_prod, orders_eq_prod, hlength, hlength, h]

end Orders

/-! ### The candidate -/

variable {c : Contraction} {found found' : List (Ladder (Index × Index))} {s : Symmetrization}

/-- The symmetrization that found pairs make, if its ratio is whole. -/
def ofFound (c : Contraction) (found : List (Ladder (Index × Index))) : Symmetrization :=
  let groups : Ladder (List Index) :=
    ⟨groupsOf (found.flatMap (·.creators)), groupsOf (found.flatMap (·.annihilators))⟩
  ⟨groups, orders (c.result.groups.flatMap fun g => [g.creators, g.annihilators]),
    orders groups.entries⟩

theorem ofFound_groups_on (c : Contraction) (found : List (Ladder (Index × Index))) (role : Role) :
    (ofFound c found).groups.on role = groupsOf (found.flatMap (·.on role)) := by
  cases role <;> rfl

theorem ofFound_implied (c : Contraction) (found : List (Ladder (Index × Index))) :
    (ofFound c found).implied =
      orders (c.result.groups.flatMap fun g => [g.creators, g.annihilators]) := rfl

theorem ofFound_required (c : Contraction) (found : List (Ladder (Index × Index))) :
    (ofFound c found).required =
      orders ((ofFound c found).groups.on .creator) *
        orders ((ofFound c found).groups.on .annihilator) :=
  orders_append _ _

/-- The pairs of a result are found in one way only. -/
theorem Finds.unique (h : Finds c found) (h' : Finds c found') : found = found' := by
  unfold Finds at h h'
  generalize c.result.groups.zipIdx = places at h h'
  induction h generalizing found' with
  | nil => exact (List.forall₂_nil_left_iff.mp h').symm
  | @cons p l places found hl _ ih =>
    obtain ⟨l', found', hl', hfound', rfl⟩ := List.forall₂_cons_left_iff.mp h'
    have hon (role : Role) : l.on role = l'.on role := by
      have := (hl role).symm.trans (hl' role)
      rwa [Except.ok.injEq] at this
    rw [ih hfound']
    congr 1
    exact congrArg₂ Ladder.mk (hon .creator) (hon .annihilator)

/-- **The candidate succeeds exactly if its ratio is whole.** -/
theorem ofContraction_eq_ok_iff_dvd (hf : Finds c found) :
    ofContraction c = .ok s ↔
      s = ofFound c found ∧ (ofFound c found).required ∣ (ofFound c found).implied := by
  rw [ofContraction_eq_ok_iff]
  constructor
  · intro h
    obtain ⟨found', hn⟩ := h
    obtain rfl := hf.unique hn.pairs
    have hs : s = ofFound c found := by
      obtain ⟨groups, implied, required⟩ := s
      have hgroups : groups = (ofFound c found).groups :=
        congrArg₂ Ladder.mk (hn.groups_eq .creator) (hn.groups_eq .annihilator)
      have himplied := hn.implied_eq
      have hrequired := hn.required_eq
      simp only at himplied hrequired
      rw [himplied, hrequired, hgroups]
      rfl
    exact ⟨hs, hs ▸ hn.required_dvd⟩
  · intro h
    obtain ⟨rfl, hdvd⟩ := h
    exact ⟨found, hf, ofFound_groups_on c found, rfl, rfl,
      Nat.le_of_dvd (orders_pos _) hdvd, hdvd⟩

theorem exists_ofContraction_iff :
    (∃ s, ofContraction c = .ok s) ↔
      ∃ found, Finds c found ∧ (ofFound c found).required ∣ (ofFound c found).implied := by
  constructor
  · intro h
    obtain ⟨s, hs⟩ := h
    obtain ⟨found, hn⟩ := ofContraction_eq_ok_iff.mp hs
    exact ⟨found, hn.pairs, ((ofContraction_eq_ok_iff_dvd hn.pairs).mp hs).2⟩
  · intro h
    obtain ⟨found, hf, hdvd⟩ := h
    exact ⟨_, (ofContraction_eq_ok_iff_dvd hf).mpr ⟨rfl, hdvd⟩⟩

end TensorContraction.Symmetrization
