import Mathlib.Algebra.Order.Field.Rat
import Mathlib.Data.Rat.Lemmas
import TensorContraction.Text.Numeral

/-!
# What numerals write

A text is a numeral if it can be put together from a sign, digits, a point and an exponent,
and then it writes one number.  Reading takes the text apart at the first mark of each kind.
No mark is a digit or a sign, so there is only one way to take it apart.

## Main definitions

* `WritesInteger` — the texts of an integer.
* `WritesDecimal` — the texts of a decimal.

## Main results

* `integer?_eq_some_iff`, `decimal?_eq_some_iff` — reading inverts writing.
-/

namespace TensorContraction.Text

variable {cs ds : List Char} {negative : Bool} {n : Nat}

/-! ### Signs and digits -/

/-- Characters with an optional sign in front of them, which may be a minus. -/
inductive Signed : List Char → Bool → List Char → Prop
  /-- No sign. -/
  | unsigned (cs : List Char) : Signed cs false cs
  /-- A plus. -/
  | plus (cs : List Char) : Signed ('+' :: cs) false cs
  /-- A minus. -/
  | minus (cs : List Char) : Signed ('-' :: cs) true cs

/-- One digit or more. -/
def Digits (cs : List Char) : Prop := cs ≠ [] ∧ ∀ c ∈ cs, c.isDigit = true

theorem signed_spec (cs : List Char) : Signed cs (signed cs).1 (signed cs).2 := by
  unfold signed
  split
  · exact .minus _
  · exact .plus _
  · exact .unsigned _

/-- A sign is split off unless another one follows. -/
theorem Signed.signed_eq (h : Signed cs negative ds) (hds : ∀ c ∈ ds, c ≠ '+' ∧ c ≠ '-') :
    signed cs = (negative, ds) := by
  cases h with
  | plus => rfl
  | minus => rfl
  | unsigned =>
    unfold signed
    split
    · exact absurd rfl (hds '-' List.mem_cons_self).2
    · exact absurd rfl (hds '+' List.mem_cons_self).1
    · rfl

theorem ne_sign_of_isDigit {c : Char} (h : c.isDigit = true) : c ≠ '+' ∧ c ≠ '-' := by
  constructor <;> rintro rfl <;> simp at h

theorem natural?_eq_some_iff :
    natural? cs = some n ↔ Digits cs ∧ Nat.ofDigitChars 10 cs 0 = n := by
  unfold natural? Digits
  simp

/-! ### Integers -/

/-- An integer as it is written: digits with an optional sign, and in range. -/
structure WritesInteger (cs : List Char) (n : Int) : Prop where
  /-- The digits have the value of the integer. -/
  exists_digits : ∃ negative digits, Signed cs negative digits ∧ Digits digits ∧
    withSign negative (Nat.ofDigitChars 10 digits 0) = n
  /-- It is not too small. -/
  minInteger_le : minInteger ≤ n
  /-- It is not too large. -/
  le_maxInteger : n ≤ maxInteger

theorem integer?_eq_some_iff {n : Int} : integer? cs = some n ↔ WritesInteger cs n := by
  unfold integer?
  simp only [bind, Option.bind_eq_some_iff, natural?_eq_some_iff, Option.ite_none_right_eq_some,
    Option.some.injEq]
  constructor
  · intro h
    obtain ⟨_, ⟨hdigits, rfl⟩, ⟨hmin, hmax⟩, rfl⟩ := h
    exact ⟨⟨_, _, signed_spec cs, hdigits, rfl⟩, hmin, hmax⟩
  · intro h
    obtain ⟨⟨negative, digits, hsigned, hdigits, rfl⟩, hmin, hmax⟩ := h
    rw [hsigned.signed_eq fun c hc => ne_sign_of_isDigit (hdigits.2 c hc)]
    exact ⟨_, ⟨hdigits, rfl⟩, ⟨hmin, hmax⟩, rfl⟩

/-! ### Decimals -/

/-- Digits with an optional point among them or at either end. -/
inductive Pointed : List Char → List Char → List Char → Prop
  /-- No point. -/
  | whole (whole : List Char) : Pointed whole whole []
  /-- A point, with what stands before and after it. -/
  | point (whole fraction : List Char) : Pointed (whole ++ '.' :: fraction) whole fraction

/-- A mantissa with an optional exponent behind it. -/
inductive Scaled : List Char → List Char → Int → Prop
  /-- No exponent. -/
  | mantissa (cs : List Char) : Scaled cs cs 0
  /-- An exponent behind its mark. -/
  | exponent {m : Char} {cs digits : List Char} {e : Int} (hmark : isExponentMark m = true)
    (hdigits : WritesInteger digits e) : Scaled (cs ++ m :: digits) cs e

/-- A decimal as it is written: digits with an optional point, an optional sign and an optional
exponent, which together move them by not too many places. -/
def WritesDecimal (cs : List Char) (q : Rat) : Prop :=
  ∃ mantissa exponent negative digits whole fraction, Scaled cs mantissa exponent ∧
    Signed mantissa negative digits ∧ Pointed digits whole fraction ∧
    Digits (whole ++ fraction) ∧ (exponent - fraction.length).natAbs ≤ maxScale ∧
    q = withSign negative (Nat.ofDigitChars 10 (whole ++ fraction) 0) *
      10 ^ (exponent - (fraction.length : Int))

theorem scaled_eq (n scale : Int) : scaled n scale = n * 10 ^ scale := by
  cases scale with
  | ofNat k => simp [scaled]
  | negSucc k =>
    rw [scaled, Rat.mkRat_eq_div, zpow_negSucc, div_eq_mul_inv]
    simp

theorem exponent?_spec {mantissa : List Char} {e : Int} (h : exponent? cs = some (mantissa, e)) :
    Scaled cs mantissa e := by
  unfold exponent? at h
  split at h
  · obtain ⟨rfl, rfl⟩ : cs = mantissa ∧ 0 = e := by simpa using h
    exact .mantissa cs
  · next before digits hcut =>
    obtain ⟨m, hm, -, rfl⟩ := cut?_eq_some_iff.mp hcut
    obtain ⟨d, hd, heq⟩ := Option.map_eq_some_iff.mp h
    obtain ⟨rfl, rfl⟩ := Prod.ext_iff.mp heq
    exact .exponent hm (integer?_eq_some_iff.mp hd)

/-- An exponent is cut off if the mantissa has no mark of one. -/
theorem Scaled.exponent?_eq {mantissa : List Char} {e : Int} (h : Scaled cs mantissa e)
    (hmantissa : ∀ c ∈ mantissa, isExponentMark c = false) :
    exponent? cs = some (mantissa, e) := by
  unfold exponent?
  cases h with
  | mantissa => rw [cut?_eq_none_iff.mpr hmantissa]
  | exponent hmark hdigits =>
    rw [cut?_eq_some_iff.mpr ⟨_, hmark, hmantissa, rfl⟩]
    simp [integer?_eq_some_iff.mpr hdigits]

theorem pointed_spec (cs : List Char) :
    Pointed cs ((cut? (· == '.') cs).getD (cs, [])).1 ((cut? (· == '.') cs).getD (cs, [])).2 := by
  cases h : cut? (· == '.') cs with
  | none => exact .whole cs
  | some p =>
    obtain ⟨m, hm, -, rfl⟩ := cut?_eq_some_iff.mp h
    obtain rfl : m = '.' := by simpa using hm
    exact .point p.1 p.2

/-- A point is cut at if none stands before it. -/
theorem Pointed.cut?_eq {whole fraction : List Char} (h : Pointed cs whole fraction)
    (hwhole : ∀ c ∈ whole, (c == '.') = false) :
    (cut? (· == '.') cs).getD (cs, []) = (whole, fraction) := by
  cases h with
  | whole => rw [cut?_eq_none_iff.mpr hwhole, Option.getD_none]
  | point =>
    rw [cut?_eq_some_iff.mpr ⟨'.', rfl, hwhole, rfl⟩, Option.getD_some]

theorem isExponentMark_eq_false_of_isDigit {c : Char} (h : c.isDigit = true) :
    isExponentMark c = false := by
  rw [isExponentMark, Bool.eq_false_iff]
  intro hmark
  simp only [Bool.or_eq_true, beq_iff_eq] at hmark
  rcases hmark with ((rfl | rfl) | rfl) | rfl <;> simp at h

theorem Pointed.forall_mem {whole fraction : List Char} {p : Char → Prop}
    (h : Pointed cs whole fraction) (hdigits : ∀ c ∈ whole ++ fraction, p c) (hpoint : p '.') :
    ∀ c ∈ cs, p c := by
  cases h with
  | whole => simpa using hdigits
  | point =>
    intro c hc
    rw [List.mem_append, List.mem_cons] at hc
    rcases hc with hc | rfl | hc
    · exact hdigits c (List.mem_append_left _ hc)
    · exact hpoint
    · exact hdigits c (List.mem_append_right _ hc)

theorem Signed.forall_mem {p : Char → Prop} (h : Signed cs negative ds) (hds : ∀ c ∈ ds, p c)
    (hplus : p '+') (hminus : p '-') : ∀ c ∈ cs, p c := by
  cases h with
  | unsigned => exact hds
  | plus => exact List.forall_mem_cons.mpr ⟨hplus, hds⟩
  | minus => exact List.forall_mem_cons.mpr ⟨hminus, hds⟩

theorem decimal?_eq_some_iff {q : Rat} : decimal? cs = some q ↔ WritesDecimal cs q := by
  unfold decimal?
  simp only [bind, Option.bind_eq_some_iff, natural?_eq_some_iff, Option.ite_none_right_eq_some,
    Option.some.injEq, Prod.exists]
  constructor
  · intro h
    obtain ⟨mantissa, exponent, hexponent, _, ⟨hdigits, rfl⟩, hscale, rfl⟩ := h
    exact ⟨mantissa, exponent, _, _, _, _, exponent?_spec hexponent, signed_spec mantissa,
      pointed_spec _, hdigits, hscale, scaled_eq _ _⟩
  · intro h
    obtain ⟨mantissa, exponent, negative, digits, whole, fraction, hscaled, hsigned, hpointed,
      hdigits, hscale, rfl⟩ := h
    -- sign, point and exponent are where reading looks for them
    have hplain : ∀ c ∈ digits, (c ≠ '+' ∧ c ≠ '-') ∧ isExponentMark c = false :=
      hpointed.forall_mem (fun c hc => ⟨ne_sign_of_isDigit (hdigits.2 c hc),
        isExponentMark_eq_false_of_isDigit (hdigits.2 c hc)⟩) (by decide)
    have hmantissa : ∀ c ∈ mantissa, isExponentMark c = false :=
      hsigned.forall_mem (fun c hc => (hplain c hc).2) (by decide) (by decide)
    have hwhole : ∀ c ∈ whole, (c == '.') = false := by
      intro c hc
      rw [beq_eq_false_iff_ne]
      rintro rfl
      simpa using hdigits.2 '.' (List.mem_append_left _ hc)
    refine ⟨mantissa, exponent, hscaled.exponent?_eq hmantissa, ?_⟩
    rw [hsigned.signed_eq fun c hc => (hplain c hc).1]
    simp only [hpointed.cut?_eq hwhole]
    exact ⟨_, ⟨hdigits, rfl⟩, hscale, scaled_eq _ _⟩

end TensorContraction.Text
