import TensorContraction.Export.Journal
import TensorContraction.Proofs.Check

/-!
# Journals of a step for each item

A journal that stops at the first failure has the outcome of the plain chain of its steps.
One that goes on keeps the values of the steps that succeed and warns of the others, so its
warnings tell all failures in the order of the items.

## Main definitions

* `Event.warnings` — the rejections that events warn of.

## Main results

* `Journal.bind_of_ok`, `Journal.bind_of_error` — one computation after another.
* `Journal.each_outcome_of_stop`, `Journal.each_outcome_of_goOn` — what comes of all steps.
* `Journal.warnings_each_of_goOn` — what they warn of.
-/

namespace TensorContraction

/-! ### Events -/

namespace Event

/-- The rejection an event warns of. -/
def rejection? : Event → Option Rejection
  | skipped r => some r
  | _ => none

/-- The rejections that events warn of, in order. -/
def warnings (events : List Event) : List Rejection := events.filterMap rejection?

@[simp] theorem warnings_nil : warnings [] = [] := rfl

@[simp] theorem warnings_append (xs ys : List Event) :
    warnings (xs ++ ys) = warnings xs ++ warnings ys := List.filterMap_append

end Event

open Check Event

/-! ### Journals -/

namespace Journal

variable {ε α β : Type} {j : Journal ε α} {f : α → Journal ε β}

theorem bind_of_ok {a : α} (h : j.outcome = .ok a) :
    j >>= f = ⟨j.events ++ (f a).events, (f a).outcome⟩ := by
  change j.andThen f = _
  rw [andThen, h]

theorem bind_of_error {e : ε} (h : j.outcome = .error e) : j >>= f = ⟨j.events, .error e⟩ := by
  change j.andThen f = _
  rw [andThen, h]

theorem mapError_outcome_of_ok {δ : Type} {g : ε → δ} {a : α} (h : j.outcome = .ok a) :
    (j.mapError g).outcome = .ok a := by
  rw [mapError, h]
  rfl

theorem mapError_outcome_of_error {δ : Type} {g : ε → δ} {e : ε} (h : j.outcome = .error e) :
    (j.mapError g).outcome = .error (g e) := by
  rw [mapError, h]
  rfl

theorem bind_outcome_eq_ok_iff {b : β} :
    (j >>= f).outcome = .ok b ↔ ∃ a, j.outcome = .ok a ∧ (f a).outcome = .ok b := by
  cases h : j.outcome with
  | error e => simp [bind_of_error h]
  | ok a => simp [bind_of_ok h]

section Each

variable {step : α → Except Rejection β} {report : α → β → Event} {xs : List α}

/-- A journal that stops at a failure has the outcome of the plain chain of steps. -/
theorem each_outcome_of_stop : (each false step report xs).outcome = xs.mapM step := by
  induction xs with
  | nil => rfl
  | cons x xs ih =>
    rw [List.mapM_cons, each]
    cases hx : step x with
    | error e => rfl
    | ok y =>
      simp only [ih]
      cases xs.mapM step <;> rfl

/-- A journal that goes on keeps what the steps that succeed give. -/
theorem each_outcome_of_goOn :
    (each true step report xs).outcome = .ok (xs.filterMap fun x => (step x).toOption) := by
  induction xs with
  | nil => rfl
  | cons x xs ih =>
    rw [each, List.filterMap_cons]
    cases hx : step x with
    | error e => simpa [Except.toOption] using ih
    | ok y => simp [ih, Except.toOption, Except.map]

/-- Where every step succeeds there is nothing to stop at. -/
theorem each_stop_eq_goOn (h : ∀ x ∈ xs, ∃ y, step x = .ok y) :
    each false step report xs = each true step report xs := by
  induction xs with
  | nil => rfl
  | cons x xs ih =>
    rcases List.forall_mem_cons.mp h with ⟨⟨y, hx⟩, hxs⟩
    rw [each, each, hx]
    simp only [ih hxs]

/-- A journal that goes on warns of each step that fails, in order. -/
theorem warnings_each_of_goOn (hreport : ∀ x y, (report x y).rejection? = none) :
    warnings (each true step report xs).events = xs.filterMap fun x => failure? (step x) := by
  induction xs with
  | nil => rfl
  | cons x xs ih =>
    rw [each, List.filterMap_cons]
    cases hx : step x with
    | error e => simpa [warnings, rejection?, failure?] using ih
    | ok y => simpa [warnings, hreport, failure?] using ih

end Each
end Journal

end TensorContraction
