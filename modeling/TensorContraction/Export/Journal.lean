import TensorContraction.Export.Event

/-!
# Journals

A journal is the outcome of a computation together with the events on the way.
Unlike the outcome, events are never lost: those in front of a failure stay.

## Main definitions

* `Journal` — events and an outcome, a monad.
* `Journal.each` — a step for each of some items, with a choice of what a failure
  does.
-/

namespace TensorContraction

/-- The events of a computation and its outcome. -/
structure Journal (ε α : Type) where
  /-- What happened, in order. -/
  events : List Event
  /-- What came of it. -/
  outcome : Except ε α

namespace Journal

variable {ε α β : Type}

/-- Goes on with the value of a journal, if it has one. -/
def andThen (j : Journal ε α) (next : α → Journal ε β) : Journal ε β :=
  match j.outcome with
  | .ok a => ⟨j.events ++ (next a).events, (next a).outcome⟩
  | .error e => ⟨j.events, .error e⟩

instance : Monad (Journal ε) where
  pure a := ⟨[], .ok a⟩
  bind := andThen

/-- A single event. -/
def note (e : Event) : Journal ε Unit := ⟨[e], .ok ()⟩

/-- The same events with another kind of failure. -/
def mapError {δ : Type} (f : ε → δ) (j : Journal ε α) : Journal δ α :=
  ⟨j.events, j.outcome.mapError f⟩

/-- Takes a step for each of some items.  A step that succeeds leaves an event.  One
that fails ends everything, or, if the rest is to go on, leaves a warning in place of
its value. -/
def each (goOn : Bool) (step : α → Except Rejection β) (report : α → β → Event) :
    List α → Journal Rejection (List β)
  | [] => ⟨[], .ok []⟩
  | x :: xs =>
    let rest := each goOn step report xs
    match step x with
    | .ok y => ⟨report x y :: rest.events, rest.outcome.map (y :: ·)⟩
    | .error e => if goOn then ⟨.skipped e :: rest.events, rest.outcome⟩ else ⟨[], .error e⟩

end Journal
end TensorContraction
