import TensorContraction.Proofs.Numeral
import TensorContraction.Proofs.Writing

/-!
# Decimals and their parts

A decimal is made of a sign, of digits with or without a point among them, and of an exponent.
The sign, the point and the exponent may be left out.  The parts make up a text and a number.  No
text is made up of parts in two ways, and reading finds the parts it is made up of.  Refused are
the texts that are not made up of such parts, and those whose exponent is out of range or moves
the digits by too many places.

## Main definitions

* `Sign`, `Exponent`, `DecimalParts` — the parts.
* `DecimalParts.chars`, `DecimalParts.significand`, `DecimalParts.scale` — the text and the number
  they make up.

## Main results

* `DecimalParts.chars_injective` — different parts make up different texts.
* `decimal?_eq_some_iff_parts` — which texts are read, and as which numbers.
-/

namespace TensorContraction.Text

/-! ### Parts -/

/-- A sign in front of digits. -/
inductive Sign where
  /-- The sign is left out. -/
  | absent
  /-- A plus, which changes nothing. -/
  | plus
  /-- A minus. -/
  | minus
  deriving DecidableEq, Repr, Inhabited

/-- The text of a sign. -/
def Sign.chars : Sign → List Char
  | absent => []
  | plus => ['+']
  | minus => ['-']

/-- Whether a sign makes a number negative. -/
def Sign.isMinus (s : Sign) : Bool := s = .minus

/-- An exponent behind the digits. -/
structure Exponent where
  /-- The letter that introduces it. -/
  mark : Char
  /-- Its sign. -/
  sign : Sign
  /-- Its digits. -/
  digits : List Char
  /-- Only four letters introduce an exponent. -/
  isMark : isExponentMark mark = true
  /-- There is a digit, and nothing else. -/
  isDigits : Digits digits

/-- The text of an exponent. -/
def Exponent.chars (e : Exponent) : List Char := e.mark :: (e.sign.chars ++ e.digits)

/-- The number of an exponent. -/
def Exponent.value (e : Exponent) : Int :=
  withSign e.sign.isMinus (Nat.ofDigitChars 10 e.digits 0)

/-- The parts of a decimal. -/
structure DecimalParts where
  /-- The sign in front. -/
  sign : Sign
  /-- The digits in front of the point, or all if there is none. -/
  whole : List Char
  /-- The digits behind the point, if there is one. -/
  fraction? : Option (List Char)
  /-- The exponent, if there is one. -/
  exponent? : Option Exponent
  /-- There is a digit on one side of the point, and nothing else on either. -/
  isDigits : Digits (whole ++ fraction?.getD [])

namespace DecimalParts

/-- The text of a point and the digits behind it. -/
def pointChars : Option (List Char) → List Char
  | none => []
  | some ds => '.' :: ds

/-- The text of an exponent that may be left out. -/
def exponentChars : Option Exponent → List Char
  | none => []
  | some e => e.chars

/-- The text of a decimal. -/
def chars (d : DecimalParts) : List Char :=
  d.sign.chars ++ (d.whole ++ (pointChars d.fraction? ++ exponentChars d.exponent?))

/-- The digits behind the point. -/
def fraction (d : DecimalParts) : List Char := d.fraction?.getD []

/-- The integer that all digits and the sign make up, the point left out. -/
def significand (d : DecimalParts) : Int :=
  withSign d.sign.isMinus (Nat.ofDigitChars 10 (d.whole ++ d.fraction) 0)

/-- The exponent, zero if it is left out. -/
def exponent (d : DecimalParts) : Int := (d.exponent?.map (·.value)).getD 0

/-- The number of places by which exponent and point together move the digits to the left. -/
def scale (d : DecimalParts) : Int := d.exponent - d.fraction.length

/-- The exponent is an integer that an export can hold, and the digits are not moved too far. -/
structure InRange (d : DecimalParts) : Prop where
  /-- The exponent is not too small. -/
  minInteger_le : minInteger ≤ d.exponent
  /-- The exponent is not too large. -/
  le_maxInteger : d.exponent ≤ maxInteger
  /-- Exponent and point together move the digits by at most `maxScale` places. -/
  natAbs_scale_le : d.scale.natAbs ≤ maxScale

end DecimalParts

/-! ### A text has one set of parts -/

/-- A sign is known if no other follows. -/
theorem Sign.chars_append_inj {s s' : Sign} {rest rest' : List Char}
    (hrest : ∀ c ∈ rest.head?, c ≠ '+' ∧ c ≠ '-') (hrest' : ∀ c ∈ rest'.head?, c ≠ '+' ∧ c ≠ '-')
    (h : s.chars ++ rest = s'.chars ++ rest') : s = s' ∧ rest = rest' := by
  have hplain {c : Char} {cs ds : List Char} (hcs : ∀ d ∈ cs.head?, d ≠ '+' ∧ d ≠ '-')
      (h : cs = c :: ds) : c ≠ '+' ∧ c ≠ '-' := hcs c (by rw [h]; rfl)
  cases s with
  | absent =>
    cases s' with
    | absent => exact ⟨rfl, h⟩
    | plus => exact absurd rfl (hplain hrest h).1
    | minus => exact absurd rfl (hplain hrest h).2
  | plus =>
    cases s' with
    | absent => exact absurd rfl (hplain hrest' h.symm).1
    | plus => exact ⟨rfl, (List.cons.inj h).2⟩
    | minus => exact absurd (List.cons.inj h).1 (by decide)
  | minus =>
    cases s' with
    | absent => exact absurd rfl (hplain hrest' h.symm).2
    | plus => exact absurd (List.cons.inj h).1 (by decide)
    | minus => exact ⟨rfl, (List.cons.inj h).2⟩

theorem forall_mem_head?_append {p : Char → Prop} {cs ds : List Char} (hcs : ∀ c ∈ cs.head?, p c)
    (hds : ∀ c ∈ ds.head?, p c) : ∀ c ∈ (cs ++ ds).head?, p c := by
  cases cs with
  | nil => exact hds
  | cons d cs => exact hcs

theorem Exponent.chars_injective : Function.Injective Exponent.chars := by
  intro e e' h
  obtain ⟨mark, sign, digits, hmark, hdigits⟩ := e
  obtain ⟨mark', sign', digits', hmark', hdigits'⟩ := e'
  obtain ⟨rfl, h⟩ := List.cons.inj h
  have hplain {ds : List Char} (hds : Digits ds) : ∀ c ∈ ds.head?, c ≠ '+' ∧ c ≠ '-' :=
    fun c hc => ne_sign_of_isDigit (hds.2 c (List.mem_of_mem_head? hc))
  obtain ⟨rfl, rfl⟩ := Sign.chars_append_inj (hplain hdigits) (hplain hdigits') h
  rfl

namespace DecimalParts

/-- Where the digits end, an exponent opens with a letter. -/
theorem head?_exponentChars (exponent? : Option Exponent) :
    ∀ c ∈ (exponentChars exponent?).head?, c.isDigit = false ∧ c ≠ '.' ∧ c ≠ '+' ∧ c ≠ '-' := by
  cases exponent? with
  | none => simp [exponentChars]
  | some e =>
    intro c hc
    obtain rfl : e.mark = c := by simpa [exponentChars, Exponent.chars] using hc
    have hmark := e.isMark
    simp only [isExponentMark, Bool.or_eq_true, beq_iff_eq] at hmark
    rcases hmark with ((h | h) | h) | h <;> rw [h] <;> decide

theorem head?_pointChars (fraction? : Option (List Char)) :
    ∀ c ∈ (pointChars fraction?).head?, c = '.' := by
  cases fraction? with
  | none => simp [pointChars]
  | some ds => simp [pointChars]

theorem exponentChars_injective : Function.Injective exponentChars := by
  intro e? e?' h
  cases e? with
  | none =>
    cases e?' with
    | none => rfl
    | some e' => simp [exponentChars, Exponent.chars] at h
  | some e =>
    cases e?' with
    | none => simp [exponentChars, Exponent.chars] at h
    | some e' => exact congrArg some (Exponent.chars_injective h)

/-- What stands behind the digits in front of the point is known. -/
theorem pointChars_append_inj {f? f?' : Option (List Char)} {e? e?' : Option Exponent}
    (hf : ∀ c ∈ f?.getD [], c.isDigit = true) (hf' : ∀ c ∈ f?'.getD [], c.isDigit = true)
    (h : pointChars f? ++ exponentChars e? = pointChars f?' ++ exponentChars e?') :
    f? = f?' ∧ e? = e?' := by
  have hend (e? : Option Exponent) : ∀ c ∈ (exponentChars e?).head?, c.isDigit = false :=
    fun c hc => (head?_exponentChars e? c hc).1
  -- a point is not the mark of an exponent
  have hpoint (e? : Option Exponent) (ds : List Char) : exponentChars e? ≠ '.' :: ds :=
    fun he => (head?_exponentChars e? '.' (by rw [he]; rfl)).2.1 rfl
  cases f? with
  | none =>
    cases f?' with
    | none => exact ⟨rfl, exponentChars_injective h⟩
    | some ds' => exact absurd h (hpoint e? _)
  | some ds =>
    cases f?' with
    | none => exact absurd h.symm (hpoint e?' _)
    | some ds' =>
      obtain ⟨rfl, hrest⟩ := (run_append_inj hf hf' (hend e?) (hend e?')).mp (List.cons.inj h).2
      exact ⟨rfl, exponentChars_injective hrest⟩

/-- **Different parts make up different texts.** -/
theorem chars_injective : Function.Injective chars := by
  intro d d' h
  -- neither a digit nor a point nor the mark of an exponent is a sign
  have hplain (d : DecimalParts) : ∀ c ∈ (d.whole ++ (pointChars d.fraction? ++
      exponentChars d.exponent?)).head?, c ≠ '+' ∧ c ≠ '-' := by
    refine forall_mem_head?_append (fun c hc => ?_)
      (forall_mem_head?_append (fun c hc => ?_) fun c hc => ?_)
    · exact ne_sign_of_isDigit
        (d.isDigits.2 c (List.mem_append_left _ (List.mem_of_mem_head? hc)))
    · rw [head?_pointChars _ c hc]
      decide
    · exact (head?_exponentChars _ c hc).2.2
  have hend (d : DecimalParts) : ∀ c ∈ (pointChars d.fraction? ++ exponentChars d.exponent?).head?,
      c.isDigit = false := by
    refine forall_mem_head?_append (fun c hc => ?_) fun c hc => ?_
    · rw [head?_pointChars _ c hc]
      decide
    · exact (head?_exponentChars _ c hc).1
  obtain ⟨hsign, hbody⟩ := Sign.chars_append_inj (hplain d) (hplain d') h
  have hdigits (d : DecimalParts) := List.forall_mem_append.mp d.isDigits.2
  obtain ⟨hwhole, hrest⟩ :=
    (run_append_inj (hdigits d).1 (hdigits d').1 (hend d) (hend d')).mp hbody
  obtain ⟨hfraction, hexponent⟩ := pointChars_append_inj (hdigits d).2 (hdigits d').2 hrest
  cases d
  cases d'
  rw [mk.injEq]
  exact ⟨hsign, hwhole, hfraction, hexponent⟩

end DecimalParts

/-! ### Reading finds the parts -/

theorem signed_iff {cs ds : List Char} {negative : Bool} :
    Signed cs negative ds ↔ ∃ s : Sign, cs = s.chars ++ ds ∧ negative = s.isMinus := by
  constructor
  · intro h
    cases h with
    | unsigned => exact ⟨.absent, rfl, rfl⟩
    | plus => exact ⟨.plus, rfl, rfl⟩
    | minus => exact ⟨.minus, rfl, rfl⟩
  · rintro ⟨s, rfl, rfl⟩
    cases s with
    | absent => exact .unsigned ds
    | plus => exact .plus ds
    | minus => exact .minus ds

theorem pointed_iff {cs whole fraction : List Char} :
    Pointed cs whole fraction ↔ ∃ fraction? : Option (List Char),
      cs = whole ++ DecimalParts.pointChars fraction? ∧ fraction = fraction?.getD [] := by
  constructor
  · intro h
    cases h with
    | whole => exact ⟨none, (List.append_nil _).symm, rfl⟩
    | point => exact ⟨some fraction, rfl, rfl⟩
  · rintro ⟨fraction?, rfl, rfl⟩
    cases fraction? with
    | none => simpa [DecimalParts.pointChars] using Pointed.whole whole
    | some ds => exact .point whole ds

theorem scaled_iff {cs mantissa : List Char} {n : Int} :
    Scaled cs mantissa n ↔ ∃ exponent? : Option Exponent,
      cs = mantissa ++ DecimalParts.exponentChars exponent? ∧
        n = (exponent?.map (·.value)).getD 0 ∧ minInteger ≤ n ∧ n ≤ maxInteger := by
  constructor
  · intro h
    cases h with
    | mantissa => exact ⟨none, (List.append_nil _).symm, rfl, by decide, by decide⟩
    | @exponent m _ _ _ hmark hdigits =>
      obtain ⟨⟨negative, digits, hsigned, hdigits, rfl⟩, hmin, hmax⟩ := hdigits
      obtain ⟨sign, rfl, rfl⟩ := signed_iff.mp hsigned
      exact ⟨some ⟨m, sign, digits, hmark, hdigits⟩, rfl, rfl, hmin, hmax⟩
  · rintro ⟨exponent?, rfl, rfl, hmin, hmax⟩
    cases exponent? with
    | none => simpa [DecimalParts.exponentChars] using Scaled.mantissa mantissa
    | some e =>
      exact .exponent e.isMark
        ⟨⟨_, e.digits, signed_iff.mpr ⟨e.sign, rfl, rfl⟩, e.isDigits, rfl⟩, hmin, hmax⟩

/-- **Texts are read by their parts.**  A text is read if it is made of parts in range, and then
as the number they make up, in lowest terms. -/
theorem decimal?_eq_some_iff_parts (cs : List Char) (q : Rat) :
    decimal? cs = some q ↔ ∃ d : DecimalParts, d.chars = cs ∧ d.InRange ∧
      q = d.significand * 10 ^ d.scale ∧ q.num.natAbs.Coprime q.den := by
  rw [decimal?_eq_some_iff]
  constructor
  · rintro ⟨mantissa, n, negative, digits, whole, fraction, hscaled, hsigned, hpointed, hdigits,
      hscale, hq⟩
    obtain ⟨exponent?, rfl, rfl, hmin, hmax⟩ := scaled_iff.mp hscaled
    obtain ⟨sign, rfl, rfl⟩ := signed_iff.mp hsigned
    obtain ⟨fraction?, rfl, rfl⟩ := pointed_iff.mp hpointed
    refine ⟨⟨sign, whole, fraction?, exponent?, hdigits⟩, ?_, ⟨hmin, hmax, hscale⟩, hq, q.reduced⟩
    simp [DecimalParts.chars]
  · rintro ⟨d, rfl, hd, hq, -⟩
    have hscaled : Scaled d.chars
        (d.sign.chars ++ (d.whole ++ DecimalParts.pointChars d.fraction?)) d.exponent := by
      refine scaled_iff.mpr ⟨d.exponent?, ?_, rfl, hd.minInteger_le, hd.le_maxInteger⟩
      simp [DecimalParts.chars]
    exact ⟨_, d.exponent, _, _, d.whole, d.fraction, hscaled,
      signed_iff.mpr ⟨d.sign, rfl, rfl⟩, pointed_iff.mpr ⟨d.fraction?, rfl, rfl⟩,
      d.isDigits, hd.natAbs_scale_le, hq⟩

end TensorContraction.Text
