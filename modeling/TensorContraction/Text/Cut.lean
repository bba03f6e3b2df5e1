/-!
# Cutting at a mark

Literals and signatures are read by cutting a run of characters at the first mark
of some kind: an exponent letter, a decimal point, a comma, a closing bracket.

## Main definitions

* `cut?` — the characters before and after the first mark.
* `pieces` — the characters between the marks.

## Main results

* `cut?_eq_some_iff` — what a cut returns.
* `cut?_eq_none_iff` — when there is nothing to cut at.
-/

namespace TensorContraction.Text

/-- The characters before and after the first one that satisfies `mark`. -/
def cut? (mark : Char → Bool) : List Char → Option (List Char × List Char)
  | [] => none
  | c :: cs =>
    if mark c then some ([], cs) else (cut? mark cs).map fun (before, after) => (c :: before, after)

theorem cut?_eq_none_iff {mark : Char → Bool} {cs : List Char} :
    cut? mark cs = none ↔ ∀ c ∈ cs, mark c = false := by
  induction cs with
  | nil => simp [cut?]
  | cons c cs ih =>
    unfold cut?
    split
    · next h => simp [h]
    · next h => simp [ih, h]

theorem cut?_eq_some_iff {mark : Char → Bool} {cs before after : List Char} :
    cut? mark cs = some (before, after) ↔
      ∃ m, mark m = true ∧ (∀ c ∈ before, mark c = false) ∧ cs = before ++ m :: after := by
  induction cs generalizing before with
  | nil => simp [cut?]
  | cons c cs ih =>
    unfold cut?
    split
    · next h =>
      constructor
      · rintro ⟨⟩
        exact ⟨c, h, by simp, rfl⟩
      · rintro ⟨m, hm, hb, he⟩
        cases before with
        | nil => simp_all
        | cons b bs =>
          simp only [List.cons_append, List.cons.injEq] at he
          have := hb b (by simp)
          simp_all
    · next h =>
      simp only [Option.map_eq_some_iff, Prod.exists, Prod.mk.injEq]
      constructor
      · rintro ⟨b, a, hc, rfl, rfl⟩
        obtain ⟨m, hm, hb, rfl⟩ := ih.1 hc
        exact ⟨m, hm, by simpa [h] using hb, rfl⟩
      · rintro ⟨m, hm, hb, he⟩
        cases before with
        | nil => simp_all
        | cons b bs =>
          simp only [List.cons_append, List.cons.injEq] at he
          obtain ⟨rfl, rfl⟩ := he
          exact ⟨bs, after, ih.2 ⟨m, hm, fun x hx => hb x (by simp [hx]), rfl⟩, rfl, rfl⟩

/-- The runs of characters that end in a mark, without their marks, and the
characters after the last mark. -/
def pieces (mark : Char → Bool) : List Char → List (List Char) × List Char
  | [] => ([], [])
  | c :: cs =>
    let (runs, rest) := pieces mark cs
    if mark c then ([] :: runs, rest)
    else match runs with
      | [] => ([], c :: rest)
      | run :: runs => ((c :: run) :: runs, rest)

end TensorContraction.Text
