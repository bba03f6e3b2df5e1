import TensorContraction.Space

/-!
# Ladder strings

An operator carries one string of creators and one string of annihilators.  A
`Ladder` is such a pair of strings over any kind of entry: spaces for the declared
*signature* of a vertex, indices for what is attached to it, groups of indices for
its antisymmetrizers.  Transposing an operator exchanges its two strings.

## Main definitions

* `Ladder`, `Ladder.on`, `Ladder.swap`, `Ladder.entries` — a pair of strings.
* `Signature` — the spaces a vertex declares.
* `Arc` — a line between two vertices and the spaces summed over along it.
-/

namespace TensorContraction

/-- A string of creators and a string of annihilators. -/
structure Ladder (α : Type) where
  /-- The upper string. -/
  creators : List α
  /-- The lower string. -/
  annihilators : List α
  deriving DecidableEq, Repr, Inhabited

namespace Ladder

variable {α : Type}

/-- The string of one role. -/
def on (l : Ladder α) : Role → List α
  | .creator => l.creators
  | .annihilator => l.annihilators

/-- The ladder with its two strings exchanged. -/
def swap (l : Ladder α) : Ladder α := ⟨l.annihilators, l.creators⟩

/-- The ladder as an operator shows it: exchanged if the operator is
transposed. -/
def seen (l : Ladder α) (transposed : Bool) : Ladder α := if transposed then l.swap else l

/-- Whether neither string has an entry. -/
def isEmpty (l : Ladder α) : Bool := l.creators.isEmpty && l.annihilators.isEmpty

/-- All entries, the creators first. -/
def entries (l : Ladder α) : List α := l.creators ++ l.annihilators

@[simp] theorem on_creator (l : Ladder α) : l.on .creator = l.creators := rfl

@[simp] theorem on_annihilator (l : Ladder α) : l.on .annihilator = l.annihilators := rfl

@[simp] theorem swap_swap (l : Ladder α) : l.swap.swap = l := rfl

@[simp] theorem seen_false (l : Ladder α) : l.seen false = l := rfl

@[simp] theorem seen_true (l : Ladder α) : l.seen true = l.swap := rfl

theorem entries_swap_perm (l : Ladder α) : l.swap.entries.Perm l.entries :=
  List.perm_append_comm

end Ladder

/-- The index spaces one vertex of an operator declares, in order. -/
abbrev Signature := Ladder Space

/-- A line between two vertices listing the spaces summed over along it.  On an
external arc the second end is a slot of the result.  `α` is the type the two ends
are written in. -/
structure Arc (α : Type) where
  /-- The end the line leaves from. -/
  first : α
  /-- The end the line arrives at. -/
  second : α
  /-- The spaces summed over. -/
  spaces : List Signature
  deriving DecidableEq, Repr, Inhabited

end TensorContraction
