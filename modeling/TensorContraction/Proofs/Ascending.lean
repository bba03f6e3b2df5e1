import Mathlib.Data.Finset.Card
import Mathlib.Data.List.Lex
import Mathlib.Data.List.Nodup
import TensorContraction.Ascending
import TensorContraction.Index

/-!
# Ascending lists over a total order

Over a total order an ascending list is determined by its members, so two sets are equal
as lists as soon as they have the same members.  Sorting by a key puts the keys in
ascending order.

The orders of indices and of keys are total, because a rank determines what it ranks.

## Main results

* `Ascending.eq_of_mem_iff` — ascending lists with the same members are equal.
* `Ascending.ofList_pairwise`, `Ascending.union_pairwise` — sets are ascending.
* `Ascending.sortOn_pairwise` — sorting puts the keys in order.
* `Ascending.sortOn_stable` — it keeps entries of one key in their order.
-/

namespace TensorContraction

/-! ### Lists without repetition -/

theorem exists_ne_of_nodup {α : Type} {l : List α} (hnodup : l.Nodup) (hlen : 2 ≤ l.length) :
    ∃ x ∈ l, ∃ y ∈ l, x ≠ y := by
  refine ⟨l[0], List.getElem_mem _, l[1], List.getElem_mem _, fun heq => ?_⟩
  have := hnodup.getElem_inj_iff.mp heq
  omega

/-! ### The orders of indices and keys -/

/-- Lists compared from the front. -/
instance instIsStrictTotalOrderList {α : Type} [LT α] [IsStrictTotalOrder α (· < ·)] :
    IsStrictTotalOrder (List α) (· < ·) where
  irrefl a := List.lt_irrefl a
  trans _ _ _ := List.lt_trans
  trichotomous := Std.Trichotomous.trichotomous

instance : IsStrictTotalOrder Index (· < ·) where
  irrefl x := List.lt_irrefl x.rank
  trans _ _ _ := List.lt_trans
  trichotomous _ _ h₁ h₂ := Index.rank_inj.mp (Std.Trichotomous.trichotomous _ _ h₁ h₂)

instance : IsStrictTotalOrder Key (· < ·) where
  irrefl k := List.lt_irrefl k.rank
  trans _ _ _ := List.lt_trans
  trichotomous _ _ h₁ h₂ := Key.rank_inj.mp (Std.Trichotomous.trichotomous _ _ h₁ h₂)

namespace Ascending

variable {α κ : Type}

/-! ### Sets -/

section Set

variable [LT α] [DecidableLT α] [DecidableEq α] [IsStrictTotalOrder α (· < ·)]

omit [DecidableLT α] [DecidableEq α] in
theorem nodup_of_pairwise {xs : List α} (h : xs.Pairwise (· < ·)) : xs.Nodup :=
  h.imp fun {a b} hab => by
    rintro rfl
    exact irrefl a hab

omit [DecidableLT α] [DecidableEq α] in
/-- **An ascending list is determined by its members.** -/
theorem eq_of_mem_iff {xs ys : List α} (hxs : xs.Pairwise (· < ·)) (hys : ys.Pairwise (· < ·))
    (h : ∀ a, a ∈ xs ↔ a ∈ ys) : xs = ys := by
  have hperm : xs.Perm ys :=
    (List.perm_ext_iff_of_nodup (nodup_of_pairwise hxs) (nodup_of_pairwise hys)).mpr h
  refine hperm.eq_of_pairwise (fun a b _ _ hab hba => ?_) hxs hys
  exact absurd (Trans.trans hab hba) (irrefl a)

theorem insert_pairwise {x : α} {xs : List α} (h : xs.Pairwise (· < ·)) :
    (insert x xs).Pairwise (· < ·) := by
  induction xs with
  | nil => exact List.pairwise_singleton _ _
  | cons y ys ih =>
    obtain ⟨hy, hys⟩ := List.pairwise_cons.mp h
    unfold insert
    split
    · next hxy =>
      refine List.pairwise_cons.mpr ⟨fun z hz => ?_, h⟩
      rcases List.mem_cons.mp hz with rfl | hz
      · exact hxy
      · exact Trans.trans hxy (hy z hz)
    · next hxy =>
      split
      · exact h
      · next hne =>
        refine List.pairwise_cons.mpr ⟨fun z hz => ?_, ih hys⟩
        rcases mem_insert.mp hz with rfl | hz
        · rcases trichotomous_of (· < ·) z y with hlt | heq | hgt
          · exact absurd hlt hxy
          · exact absurd heq hne
          · exact hgt
        · exact hy z hz

theorem union_pairwise {xs ys : List α} (h : ys.Pairwise (· < ·)) :
    (union xs ys).Pairwise (· < ·) := by
  induction xs with
  | nil => exact h
  | cons x xs ih => exact insert_pairwise ih

theorem ofList_pairwise (xs : List α) : (ofList xs).Pairwise (· < ·) := by
  change (union xs []).Pairwise (· < ·)
  exact union_pairwise List.Pairwise.nil

/-- A set has as many members as there are distinct elements. -/
theorem length_ofList (xs : List α) : (ofList xs).length = xs.toFinset.card := by
  rw [← List.toFinset_card_of_nodup (nodup_of_pairwise (ofList_pairwise xs))]
  congr 1
  ext a
  rw [List.mem_toFinset, List.mem_toFinset, mem_ofList]

theorem ofList_eq_ofList_iff {xs ys : List α} :
    ofList xs = ofList ys ↔ ∀ a, a ∈ xs ↔ a ∈ ys := by
  constructor
  · intro h a
    rw [← mem_ofList, h, mem_ofList]
  · intro h
    refine eq_of_mem_iff (ofList_pairwise xs) (ofList_pairwise ys) fun a => ?_
    rw [mem_ofList, mem_ofList, h]

/-- What is done to each element without making two into one is done to each member. -/
theorem ofList_map_perm {β : Type} [LT β] [DecidableLT β] [DecidableEq β]
    [IsStrictTotalOrder β (· < ·)] {f : α → β} {xs : List α}
    (hf : ∀ a ∈ xs, ∀ b ∈ xs, f a = f b → a = b) :
    (ofList (xs.map f)).Perm ((ofList xs).map f) := by
  have hnodup : ((ofList xs).map f).Nodup := by
    refine (nodup_of_pairwise (ofList_pairwise xs)).map_on fun a ha b hb => hf a ?_ b ?_
    · exact mem_ofList.mp ha
    · exact mem_ofList.mp hb
  rw [List.perm_ext_iff_of_nodup (nodup_of_pairwise (ofList_pairwise _)) hnodup]
  intro b
  rw [mem_ofList, List.mem_map, List.mem_map]
  simp only [mem_ofList]

end Set

/-! ### Sorting by a key -/

section Keyed

variable [LT κ] [DecidableLT κ] [IsStrictTotalOrder κ (· < ·)] (key : α → κ)

theorem insertOn_pairwise {x : α} {xs : List α} (h : xs.Pairwise fun a b => ¬ key b < key a) :
    (insertOn key x xs).Pairwise fun a b => ¬ key b < key a := by
  induction xs with
  | nil => exact List.pairwise_singleton _ _
  | cons y ys ih =>
    obtain ⟨hy, hys⟩ := List.pairwise_cons.mp h
    unfold insertOn
    split
    · next hyx =>
      refine List.pairwise_cons.mpr ⟨fun z hz => ?_, ih hys⟩
      rcases List.mem_cons.mp ((insertOn_perm key x ys).mem_iff.mp hz) with rfl | hz
      · exact asymm hyx
      · exact hy z hz
    · next hyx =>
      refine List.pairwise_cons.mpr ⟨fun z hz => ?_, h⟩
      rcases List.mem_cons.mp hz with rfl | hz
      · exact hyx
      · -- a later key below that of `x` would be below that of `y`
        intro hzx
        rcases trichotomous_of (· < ·) (key x) (key y) with hlt | heq | hgt
        · exact hy z hz (Trans.trans hzx hlt)
        · exact hy z hz (heq ▸ hzx)
        · exact hyx hgt

theorem sortOn_pairwise (xs : List α) :
    (sortOn key xs).Pairwise fun a b => ¬ key b < key a := by
  induction xs with
  | nil => exact List.Pairwise.nil
  | cons x xs ih => exact insertOn_pairwise key ih

theorem insertOn_stable {R : α → α → Prop} {x : α} {xs : List α} (hx : ∀ y ∈ xs, R x y)
    (h : xs.Pairwise fun a b => key a < key b ∨ key a = key b ∧ R a b) :
    (insertOn key x xs).Pairwise fun a b => key a < key b ∨ key a = key b ∧ R a b := by
  induction xs with
  | nil => exact List.pairwise_singleton _ _
  | cons y ys ih =>
    obtain ⟨hy, hys⟩ := List.pairwise_cons.mp h
    obtain ⟨hxy, hxys⟩ := List.forall_mem_cons.mp hx
    unfold insertOn
    split
    · next hyx =>
      refine List.pairwise_cons.mpr ⟨fun z hz => ?_, ih hxys hys⟩
      rcases List.mem_cons.mp ((insertOn_perm key x ys).mem_iff.mp hz) with rfl | hz
      · exact .inl hyx
      · exact hy z hz
    · next hyx =>
      have hkey : key x < key y ∨ key x = key y := by
        rcases trichotomous_of (· < ·) (key x) (key y) with hlt | heq | hgt
        · exact .inl hlt
        · exact .inr heq
        · exact absurd hgt hyx
      refine List.pairwise_cons.mpr ⟨fun z hz => ?_, h⟩
      rcases List.mem_cons.mp hz with rfl | hmem
      · exact hkey.imp_right fun heq => ⟨heq, hxy⟩
      · -- what comes behind `y` by its key or by its place comes behind `x` in the same way
        rcases hkey with hlt | heq <;> rcases hy z hmem with hlt' | ⟨heq', -⟩
        · exact .inl (Trans.trans hlt hlt')
        · exact .inl (heq' ▸ hlt)
        · exact .inl (heq ▸ hlt')
        · exact .inr ⟨heq.trans heq', hxys z hmem⟩

/-- **Sorting keeps entries of one key in their order.** -/
theorem sortOn_stable {R : α → α → Prop} {xs : List α} (h : xs.Pairwise R) :
    (sortOn key xs).Pairwise fun a b => key a < key b ∨ key a = key b ∧ R a b := by
  induction xs with
  | nil => exact List.Pairwise.nil
  | cons x xs ih =>
    obtain ⟨hx, hxs⟩ := List.pairwise_cons.mp h
    exact insertOn_stable key (fun y hy => hx y ((sortOn_perm key xs).mem_iff.mp hy)) (ih hxs)

omit [IsStrictTotalOrder κ (· < ·)] in
@[simp] theorem mem_sortOn {x : α} {xs : List α} : x ∈ sortOn key xs ↔ x ∈ xs :=
  (sortOn_perm key xs).mem_iff

end Keyed

end Ascending
end TensorContraction
