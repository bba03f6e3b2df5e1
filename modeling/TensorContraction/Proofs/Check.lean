import Mathlib.Data.List.Forall2

/-!
# Chains of checks

A chain of checks succeeds when each of them does, and checking each entry of a list
succeeds when every entry passes; what comes out then stands position by position
against what went in.  With these equivalences a chain is taken apart without looking
at how failures travel.

## Main definitions

* `Check.failure?` — why a check fails.
* `Check.FailsBy` — a check that fails for reasons of one kind only.

## Main results

* `Check.bind_eq_ok_iff` — a chain of two checks.
* `Check.mapM_eq_ok_iff` — a check of every entry, as a relation between two lists.
* `Check.exists_of_mapM_eq_error` — it fails as one of the entries does.
* `Check.exists_forall₂_iff` — such a relation can be met entry by entry.
* `Check.mapM_eq_error_of_head?` — a check of every entry that fails, fails for the first.
* `Check.FailsBy.bind`, `Check.failsBy_mapM` — the reasons of a chain are those of its checks.
-/

namespace TensorContraction.Check

variable {ε δ α β : Type}

/-! ### Two checks -/

theorem bind_eq_ok_iff {x : Except ε α} {f : α → Except ε β} {b : β} :
    x >>= f = .ok b ↔ ∃ a, x = .ok a ∧ f a = .ok b := by
  cases x with
  | error e => simp [bind, Except.bind]
  | ok a => simp [bind, Except.bind]

theorem bind_eq_error_iff {x : Except ε α} {f : α → Except ε β} {e : ε} :
    x >>= f = .error e ↔ x = .error e ∨ ∃ a, x = .ok a ∧ f a = .error e := by
  cases x with
  | error d => simp [bind, Except.bind]
  | ok a => simp [bind, Except.bind]

theorem pure_eq_ok_iff {a b : α} : (pure a : Except ε α) = .ok b ↔ a = b := by
  simp [pure, Except.pure]

theorem map_eq_ok_iff {x : Except ε α} {f : α → β} {b : β} :
    x.map f = .ok b ↔ ∃ a, x = .ok a ∧ f a = b := by
  cases x with
  | error e => simp [Except.map]
  | ok a => simp [Except.map]

theorem map_eq_error_iff {x : Except ε α} {f : α → β} {e : ε} :
    x.map f = .error e ↔ x = .error e := by
  cases x with
  | error e => simp [Except.map]
  | ok a => simp [Except.map]

@[simp] theorem mapError_eq_ok_iff {x : Except ε α} {f : ε → δ} {a : α} :
    x.mapError f = .ok a ↔ x = .ok a := by
  cases x with
  | error e => simp [Except.mapError]
  | ok a => simp [Except.mapError]

theorem mapError_eq_error_iff {x : Except ε α} {f : ε → δ} {d : δ} :
    x.mapError f = .error d ↔ ∃ e, x = .error e ∧ f e = d := by
  cases x with
  | error e => simp [Except.mapError]
  | ok a => simp [Except.mapError]

/-! ### A check of every entry -/

theorem mapM_eq_ok_iff {f : α → Except ε β} {xs : List α} {ys : List β} :
    xs.mapM f = .ok ys ↔ List.Forall₂ (fun x y => f x = .ok y) xs ys := by
  induction xs generalizing ys with
  | nil => rw [List.mapM_nil, pure_eq_ok_iff, List.forall₂_nil_left_iff, eq_comm]
  | cons x xs ih =>
    rw [List.mapM_cons, bind_eq_ok_iff, List.forall₂_cons_left_iff]
    constructor
    · intro h
      obtain ⟨y, hy, h⟩ := h
      obtain ⟨zs, hzs, h⟩ := bind_eq_ok_iff.mp h
      exact ⟨y, zs, hy, ih.mp hzs, (pure_eq_ok_iff.mp h).symm⟩
    · intro h
      obtain ⟨y, zs, hy, hzs, rfl⟩ := h
      exact ⟨y, hy, bind_eq_ok_iff.mpr ⟨zs, ih.mpr hzs, rfl⟩⟩

theorem exists_forall₂_iff {R : α → β → Prop} {xs : List α} :
    (∃ ys, List.Forall₂ R xs ys) ↔ ∀ x ∈ xs, ∃ y, R x y := by
  induction xs with
  | nil => simp
  | cons x xs ih =>
    rw [List.forall_mem_cons, ← ih]
    constructor
    · intro h
      obtain ⟨_, h⟩ := h
      obtain ⟨y, ys, hy, hys, -⟩ := List.forall₂_cons_left_iff.mp h
      exact ⟨⟨y, hy⟩, ys, hys⟩
    · intro h
      obtain ⟨⟨y, hy⟩, ys, hys⟩ := h
      exact ⟨y :: ys, .cons hy hys⟩

theorem map_eq_of_forall₂ {γ : Type} {R : α → β → Prop} {f : α → γ} {g : β → γ}
    (hfg : ∀ a b, R a b → f a = g b) {xs : List α} {ys : List β} (h : List.Forall₂ R xs ys) :
    xs.map f = ys.map g := by
  induction h with
  | nil => rfl
  | @cons x y xs ys hxy _ ih => rw [List.map_cons, List.map_cons, hfg x y hxy, ih]

/-- What is picked out of two lists that stand against each other stands so again. -/
theorem map_filter_eq_of_forall₂ {γ : Type} {R : α → β → Prop} {p : α → Bool} {q : β → Bool}
    {f : α → γ} {g : β → γ} (hpq : ∀ a b, R a b → p a = q b) (hfg : ∀ a b, R a b → f a = g b)
    {xs : List α} {ys : List β} (h : List.Forall₂ R xs ys) :
    (xs.filter p).map f = (ys.filter q).map g := by
  refine map_eq_of_forall₂ hfg (List.rel_filter ?_ h)
  intro a b hab
  show p a = true ↔ q b = true
  rw [hpq a b hab]

/-- A list stands against another by a function if it is that function of the other. -/
theorem forall₂_eq_iff {f : β → α} {xs : List α} {ys : List β} :
    List.Forall₂ (fun x y => x = f y) xs ys ↔ xs = ys.map f := by
  rw [← List.forall₂_map_right_iff (R := fun x y => x = y), List.forall₂_eq_eq_eq]

/-- Two lists still stand against each other if their entries are changed alike. -/
theorem forall₂_map {R : α → β → Prop} {f : α → α} {g : β → β} {xs : List α} {ys : List β}
    (h : List.Forall₂ R xs ys) (hfg : ∀ x ∈ xs, ∀ y, R x y → R (f x) (g y)) :
    List.Forall₂ R (xs.map f) (ys.map g) := by
  refine List.forall₂_map_left_iff.mpr (List.forall₂_map_right_iff.mpr ?_)
  refine ((List.forall₂_and_left _ _).mpr ⟨fun _ hx => hx, h⟩).imp ?_
  rintro x y ⟨hx, hxy⟩
  exact hfg x hx y hxy

/-- Two lists that stand against a third one stand against each other. -/
theorem forall₂_of_forall₂_left {γ : Type} {R : α → β → Prop} {S : α → γ → Prop}
    {T : β → γ → Prop} (h : ∀ a b c, R a b → S a c → T b c) {xs : List α} {ys : List β}
    {zs : List γ} (hR : List.Forall₂ R xs ys) (hS : List.Forall₂ S xs zs) :
    List.Forall₂ T ys zs := by
  induction hR generalizing zs with
  | nil =>
    rw [List.forall₂_nil_left_iff.mp hS]
    exact .nil
  | cons hxy _ ih =>
    obtain ⟨z, zs, hz, hzs, rfl⟩ := List.forall₂_cons_left_iff.mp hS
    exact .cons (h _ _ _ hxy hz) (ih hzs)

theorem exists_left_of_forall₂ {R : α → β → Prop} {xs : List α} {ys : List β}
    (h : List.Forall₂ R xs ys) {y : β} (hy : y ∈ ys) : ∃ x ∈ xs, R x y := by
  induction h with
  | nil => exact absurd hy List.not_mem_nil
  | cons hxy _ ih =>
    rcases List.mem_cons.mp hy with rfl | hy
    · exact ⟨_, List.mem_cons_self, hxy⟩
    · obtain ⟨x, hx, hxy⟩ := ih hy
      exact ⟨x, List.mem_cons_of_mem _ hx, hxy⟩

theorem exists_right_of_forall₂ {R : α → β → Prop} {xs : List α} {ys : List β}
    (h : List.Forall₂ R xs ys) {x : α} (hx : x ∈ xs) : ∃ y ∈ ys, R x y :=
  exists_left_of_forall₂ (R := flip R) h.flip hx

theorem forall_mem_of_forall₂ {R : α → β → Prop} {p : α → Prop} {q : β → Prop}
    (hpq : ∀ a b, R a b → (p a ↔ q b)) {xs : List α} {ys : List β} (h : List.Forall₂ R xs ys) :
    (∀ x ∈ xs, p x) ↔ ∀ y ∈ ys, q y := by
  induction h with
  | nil => simp
  | @cons x y xs ys hxy _ ih => rw [List.forall_mem_cons, List.forall_mem_cons, hpq x y hxy, ih]

/-- Checks that agree on the entries of a list agree on the list. -/
theorem mapM_congr {f g : α → Except ε β} {xs : List α} (h : ∀ x ∈ xs, f x = g x) :
    xs.mapM f = xs.mapM g := by
  induction xs with
  | nil => rfl
  | cons x xs ih =>
    rw [List.forall_mem_cons] at h
    rw [List.mapM_cons, List.mapM_cons, h.1, ih h.2]

/-- Checks that differ in what they make of a value differ so as checks of every entry. -/
theorem mapM_eq_map_mapM {γ : Type} {f : α → Except ε β} {g : α → Except ε γ} {h : β → γ}
    (hfg : ∀ x, g x = h <$> f x) (xs : List α) : xs.mapM g = List.map h <$> xs.mapM f := by
  induction xs with
  | nil => rfl
  | cons x xs ih =>
    rw [List.mapM_cons, List.mapM_cons, hfg x, ih]
    cases f x with
    | error e => rfl
    | ok y =>
      cases xs.mapM f with
      | error e => rfl
      | ok ys => rfl

/-! ### The first check that fails -/

/-- A check of every entry fails only if that of some entry does. -/
theorem exists_of_mapM_eq_error {f : α → Except ε β} {xs : List α} {e : ε}
    (h : xs.mapM f = .error e) : ∃ x ∈ xs, f x = .error e := by
  induction xs with
  | nil => simp [pure, Except.pure] at h
  | cons x xs ih =>
    rw [List.mapM_cons] at h
    rcases bind_eq_error_iff.mp h with hx | ⟨y, -, h⟩
    · exact ⟨x, List.mem_cons_self, hx⟩
    rcases bind_eq_error_iff.mp h with hxs | ⟨ys, -, h⟩
    · obtain ⟨z, hz, hez⟩ := ih hxs
      exact ⟨z, List.mem_cons_of_mem _ hz, hez⟩
    · simp [pure, Except.pure] at h

/-- Why a computation fails, if it does. -/
def failure? : Except ε α → Option ε
  | .ok _ => none
  | .error e => some e

/-- A chain of steps ends with the first that fails. -/
theorem mapM_eq_error_of_head? {f : α → Except ε β} {xs : List α} {e : ε}
    (h : (xs.filterMap fun x => failure? (f x)).head? = some e) : xs.mapM f = .error e := by
  induction xs with
  | nil => simp at h
  | cons x xs ih =>
    rw [List.mapM_cons]
    cases hx : f x with
    | error d =>
      obtain rfl : d = e := by simpa [failure?, hx] using h
      rfl
    | ok y =>
      have hxs : xs.mapM f = .error e := ih (by simpa [failure?, hx] using h)
      rw [hxs]
      rfl

theorem mapM_eq_ok_of_head? {f : α → Except ε β} {xs : List α}
    (h : (xs.filterMap fun x => failure? (f x)).head? = none) :
    xs.mapM f = .ok (xs.filterMap fun x => (f x).toOption) := by
  induction xs with
  | nil => rfl
  | cons x xs ih =>
    rw [List.mapM_cons]
    cases hx : f x with
    | error d => simp [failure?, hx] at h
    | ok y =>
      have hxs := ih (by simpa [failure?, hx] using h)
      rw [hxs, List.filterMap_cons_some (by rw [hx]; rfl)]
      rfl

/-! ### Why checks fail -/

/-- A check that fails for reasons of one kind only. -/
def FailsBy (P : ε → Prop) (x : Except ε α) : Prop := ∀ e, x = .error e → P e

variable {P : ε → Prop}

theorem failsBy_ok (a : α) : FailsBy P (.ok a) := by
  intro e h
  cases h

theorem failsBy_error {e : ε} (h : P e) : FailsBy P (.error e : Except ε α) := by
  rintro _ ⟨⟩
  exact h

/-- A later check is only made where the earlier one succeeds. -/
theorem FailsBy.bind {x : Except ε α} {f : α → Except ε β} (hx : FailsBy P x)
    (hf : ∀ a, x = .ok a → FailsBy P (f a)) : FailsBy P (x >>= f) := by
  intro e h
  rcases bind_eq_error_iff.mp h with h | ⟨a, ha, h⟩
  · exact hx e h
  · exact hf a ha e h

theorem FailsBy.mapError {f : δ → ε} {x : Except δ α} (hx : FailsBy (fun d => P (f d)) x) :
    FailsBy P (x.mapError f) := by
  cases x with
  | ok a => exact failsBy_ok a
  | error d => exact failsBy_error (hx d rfl)

theorem failsBy_mapM {f : α → Except ε β} {xs : List α} (hf : ∀ x ∈ xs, FailsBy P (f x)) :
    FailsBy P (xs.mapM f) := by
  intro e h
  obtain ⟨x, hx, h⟩ := exists_of_mapM_eq_error h
  exact hf x hx e h

end TensorContraction.Check
