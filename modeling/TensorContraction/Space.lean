/-!
# Orbital spaces and operator roles

Every index of a tensor runs over one of three orbital spaces and belongs either
to the creators or to the annihilators of its operator.  Exports write a space as
a letter or as a number and a role as a number; both numberings start at zero
here, whatever a file writes.

## Main definitions

* `Space`, `Space.letter`, `Space.ofLetter?` — the spaces and their letters.
* `Space.number`, `Space.ofNumber?` — the spaces in order.
* `Role`, `Role.number`, `Role.ofNumber?` — creators before annihilators.

## Main results

* `Space.ofLetter?_eq_some_iff`, `Space.ofNumber?_eq_some_iff`,
  `Role.ofNumber?_eq_some_iff` — each reader inverts its writer.
-/

namespace TensorContraction

/-! ### Spaces -/

/-- The orbital space an index runs over. -/
inductive Space where
  /-- The hole space. -/
  | occupied
  /-- The particle space. -/
  | virtual
  /-- The partially occupied space. -/
  | active
  deriving DecidableEq, Repr, Inhabited

namespace Space

/-- The letter a signature writes for a space. -/
def letter : Space → Char
  | occupied => 'H'
  | virtual => 'P'
  | active => 'V'

/-- The space a letter stands for; no other letter, and no small one, names a
space. -/
def ofLetter? : Char → Option Space
  | 'H' => some occupied
  | 'P' => some virtual
  | 'V' => some active
  | _ => none

/-- The position of a space in the order of spaces. -/
def number : Space → Nat
  | occupied => 0
  | virtual => 1
  | active => 2

/-- The space at a position of the order of spaces. -/
def ofNumber? : Nat → Option Space
  | 0 => some occupied
  | 1 => some virtual
  | 2 => some active
  | _ => none

/-- The full name of a space, as messages and documents show it. -/
def name : Space → String
  | occupied => "Occupied"
  | virtual => "Virtual"
  | active => "Active"

theorem ofLetter?_eq_some_iff {c : Char} {s : Space} : ofLetter? c = some s ↔ c = s.letter := by
  constructor
  · unfold ofLetter?
    split <;> rintro ⟨⟩ <;> rfl
  · rintro rfl
    cases s <;> rfl

theorem ofNumber?_eq_some_iff {n : Nat} {s : Space} : ofNumber? n = some s ↔ n = s.number := by
  constructor
  · unfold ofNumber?
    split <;> rintro ⟨⟩ <;> rfl
  · rintro rfl
    cases s <;> rfl

theorem number_inj {s t : Space} : s.number = t.number ↔ s = t := by
  cases s <;> cases t <;> decide

end Space

/-! ### Roles -/

/-- The side of an operator an index stands on. -/
inductive Role where
  /-- The upper string of an operator. -/
  | creator
  /-- The lower string of an operator. -/
  | annihilator
  deriving DecidableEq, Repr, Inhabited

namespace Role

/-- The position of a role in the order of roles. -/
def number : Role → Nat
  | creator => 0
  | annihilator => 1

/-- The role at a position of the order of roles. -/
def ofNumber? : Nat → Option Role
  | 0 => some creator
  | 1 => some annihilator
  | _ => none

/-- The word for a role within a sentence. -/
def name : Role → String
  | creator => "creator"
  | annihilator => "annihilator"

theorem ofNumber?_eq_some_iff {n : Nat} {r : Role} : ofNumber? n = some r ↔ n = r.number := by
  constructor
  · unfold ofNumber?
    split <;> rintro ⟨⟩ <;> rfl
  · rintro rfl
    cases r <;> rfl

theorem number_inj {r q : Role} : r.number = q.number ↔ r = q := by
  cases r <;> cases q <;> decide

end Role
end TensorContraction
