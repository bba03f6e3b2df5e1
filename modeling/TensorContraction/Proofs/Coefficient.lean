import Mathlib.Data.Rat.Lemmas
import TensorContraction.Proofs.Concatenation
import TensorContraction.Proofs.Legibility
import TensorContraction.Proofs.Prefactor
import TensorContraction.Term.Sequant

/-!
# The coefficient of a line

The factor of a term is spread over its line: a sign, a magnitude unless it is one, and the
inverse of the prefactor unless that is one or the result has no indices.  Whoever reads the line
multiplies what stands in front of the first operator.  Operators show their indices in braces,
and numbers have no braces, so that is where the coefficient ends; and what it comes to is the
factor divided by the prefactor.  Nothing is lost where a result without indices hides its
prefactor: there is nothing to reorder then, and the prefactor is one.

## Main definitions

* `Text.ratio?` — reads a rational number.
* `Sequant.coefficient?` — reads the coefficient of a line.

## Main results

* `Text.WritesRatio.ratio?_eq` — a number is read as it was written.
* `Sequant.runs_line` — the words of a line.
* `Symmetrization.prefactor_eq_one` — a result without indices has the prefactor one.
* `Sequant.coefficient?_line` — a line shows the factor over the prefactor.
-/

namespace TensorContraction

open Text

/-! ### Reading numbers -/

namespace Text

/-- Reads a rational number: an integer, or one over a denominator that is not zero. -/
def ratio? (cs : List Char) : Option Rat := do
  let (negative, digits) := signed cs
  let (above, below) := (cut? (· == '/') digits).getD (digits, ['1'])
  let n ← natural? above
  let d ← natural? below
  if d = 0 then none else some (mkRat (withSign negative n) d)

/-- A rational number as it is written, in lowest terms or not. -/
inductive WritesRatio : List Char → Rat → Prop
  /-- An integer. -/
  | whole (z : Int) : WritesRatio (integerText z).toList z
  /-- An integer over a denominator. -/
  | quotient (z : Int) {d : Nat} (hd : d ≠ 0) :
    WritesRatio ((integerText z).toList ++ '/' :: Nat.toDigits 10 d) (z / d)

theorem writesRatio_ratioText (q : Rat) : WritesRatio (ratioText q).toList q := by
  rw [toList_ratioText]
  split
  · next hden =>
    have hq : (q.num : Rat) = q := Rat.coe_int_num_of_den_eq_one hden
    exact hq ▸ .whole q.num
  · have hq := WritesRatio.quotient q.num q.den_ne_zero
    rwa [Rat.num_div_den] at hq

theorem writesRatio_inverse {p : Nat} (hp : p ≠ 0) :
    WritesRatio ("1/" ++ toString p).toList (1 / p) := by
  have hquotient := WritesRatio.quotient 1 hp
  rw [Int.cast_one] at hquotient
  rw [String.toList_append, toList_toString]
  exact hquotient

variable {cs : List Char} {q : Rat}

theorem natural?_toDigits (n : Nat) : natural? (Nat.toDigits 10 n) = some n :=
  natural?_eq_some_iff.mpr ⟨⟨Nat.toDigits_ne_nil, fun _ hc => isDigit_of_mem_toDigits hc⟩,
    Nat.ofDigitChars_ten_toDigits⟩

theorem slash_notMem_toDigits (n : Nat) : ∀ c ∈ Nat.toDigits 10 n, (c == '/') = false := by
  intro c hc
  rw [beq_eq_false_iff_ne]
  rintro rfl
  exact absurd (isDigit_of_mem_toDigits hc) (by decide)

/-- The sign of an integer is split off, whatever stands behind the digits. -/
theorem signed_integerText_append (z : Int) (rest : List Char)
    (hrest : ∀ c ∈ rest, c ≠ '+' ∧ c ≠ '-') :
    signed ((integerText z).toList ++ rest) =
      (decide (z < 0), Nat.toDigits 10 z.natAbs ++ rest) := by
  have hds : ∀ c ∈ Nat.toDigits 10 z.natAbs ++ rest, c ≠ '+' ∧ c ≠ '-' :=
    List.forall_mem_append.mpr ⟨fun _ hc => ne_sign_of_isDigit (isDigit_of_mem_toDigits hc), hrest⟩
  rw [toList_integerText]
  by_cases hz : z < 0
  · rw [if_pos hz, decide_eq_true hz]
    exact (Signed.minus _).signed_eq hds
  · rw [if_neg hz, decide_eq_false hz]
    exact (Signed.unsigned _).signed_eq hds

theorem withSign_natAbs (z : Int) : withSign (decide (z < 0)) z.natAbs = z := by
  unfold withSign
  split
  · next hz =>
    have hneg : z < 0 := of_decide_eq_true hz
    omega
  · next hz =>
    have hnonneg : ¬ z < 0 := fun h => hz (decide_eq_true h)
    omega

/-- **A number is read as it was written.** -/
theorem WritesRatio.ratio?_eq (h : WritesRatio cs q) : ratio? cs = some q := by
  cases h with
  | whole z =>
    have hsigned := signed_integerText_append z [] (by simp)
    rw [List.append_nil, List.append_nil] at hsigned
    have hcut : cut? (· == '/') (Nat.toDigits 10 z.natAbs) = none :=
      cut?_eq_none_iff.mpr (slash_notMem_toDigits z.natAbs)
    have hone : natural? ['1'] = some 1 := natural?_toDigits 1
    simp only [ratio?, hsigned, hcut, Option.getD_none, natural?_toDigits, hone,
      Option.bind_eq_bind, Option.bind_some, one_ne_zero, if_false, withSign_natAbs, Rat.mkRat_one]
  | @quotient z d hd =>
    have hsigned := signed_integerText_append z ('/' :: Nat.toDigits 10 d)
      (List.forall_mem_cons.mpr
        ⟨by decide, fun _ hc => ne_sign_of_isDigit (isDigit_of_mem_toDigits hc)⟩)
    have hcut : cut? (· == '/') (Nat.toDigits 10 z.natAbs ++ '/' :: Nat.toDigits 10 d) =
        some (Nat.toDigits 10 z.natAbs, Nat.toDigits 10 d) :=
      cut?_eq_some_iff.mpr ⟨'/', rfl, slash_notMem_toDigits z.natAbs, rfl⟩
    simp only [ratio?, hsigned, hcut, Option.getD_some, natural?_toDigits,
      Option.bind_eq_bind, Option.bind_some, hd, if_false, withSign_natAbs, Rat.mkRat_eq_div]

/-! ### Words between blanks -/

variable {s b t : String} {ws : List String}

/-- A text without a blank. -/
def Solid (s : String) : Prop := ∀ c ∈ s.toList, isBlank c = false

instance (s : String) : Decidable (Solid s) := List.decidableBAll _ _

theorem Solid.append (hs : Solid s) (ht : Solid t) : Solid (s ++ t) := by
  rw [Solid, String.toList_append]
  exact List.forall_mem_append.mpr ⟨hs, ht⟩

theorem Solid.intercalate (hs : Solid s) (hws : ∀ w ∈ ws, Solid w) :
    Solid (String.intercalate s ws) := by
  intro c hc
  rw [String.toList_intercalate] at hc
  rcases mem_intercalate hc with hc | ⟨cs, hcs, hc⟩
  · exact hs c hc
  · obtain ⟨w, hw, rfl⟩ := List.mem_map.mp hcs
    exact hws w hw c hc

theorem not_isBlank_of_isDigit {c : Char} (h : c.isDigit = true) : isBlank c = false := by
  obtain ⟨hzero, hnine⟩ := Char.isDigit_iff_toNat.mp h
  have hends : ∀ r ∈ blankRanges, r.2 < '0'.toNat ∨ '9'.toNat < r.1 := by decide
  have hoff : ∀ r ∈ blankRanges, ¬ (r.1 ≤ c.toNat ∧ c.toNat ≤ r.2) := by
    intro r hr
    have := hends r hr
    omega
  simpa [isBlank, within] using hoff

theorem solid_toString (n : Nat) : Solid (toString n) := by
  intro c hc
  rw [toList_toString] at hc
  exact not_isBlank_of_isDigit (isDigit_of_mem_toDigits hc)

/-- A text without a blank that is not empty, which makes it a word. -/
def IsRun (w : String) : Prop := w.toList ≠ [] ∧ Solid w

instance (w : String) : Decidable (IsRun w) := inferInstanceAs (Decidable (_ ∧ _))

theorem WritesRatio.isDigit_of_mem {c : Char} (h : WritesRatio cs q) (hc : c ∈ cs) :
    c.isDigit = true ∨ c = '-' ∨ c = '/' := by
  cases h with
  | whole z => exact (isDigit_of_mem_integerText hc).imp_right .inl
  | quotient z hd =>
    rcases List.mem_append.mp hc with hc | hc
    · exact (isDigit_of_mem_integerText hc).imp_right .inl
    · rcases List.mem_cons.mp hc with hc | hc
      · exact .inr (.inr hc)
      · exact .inl (isDigit_of_mem_toDigits hc)

theorem WritesRatio.ne_nil (h : WritesRatio cs q) : cs ≠ [] := by
  cases h with
  | whole z =>
    rw [toList_integerText]
    exact List.append_ne_nil_of_right_ne_nil _ Nat.toDigits_ne_nil
  | quotient z hd => exact List.append_ne_nil_of_right_ne_nil _ (List.cons_ne_nil _ _)

theorem WritesRatio.isRun {w : String} (h : WritesRatio w.toList q) : IsRun w := by
  constructor
  · exact h.ne_nil
  · intro c hc
    rcases h.isDigit_of_mem hc with hdigit | rfl | rfl
    · exact not_isBlank_of_isDigit hdigit
    · decide
    · decide

/-- Blanks behind a text hold no word. -/
theorem runs_append_blank (hb : Blank b) : runs (s ++ b) = runs s := by
  cases hcs : b.toList with
  | nil =>
    obtain rfl : b = "" := String.toList_inj.mp hcs
    rw [String.append_empty]
  | cons c cs =>
    have hall : ∀ d ∈ c :: cs, isBlank d = true := hcs ▸ hb
    obtain ⟨hc, hrest⟩ := List.forall_mem_cons.mp hall
    have hnone := runs_of_blank (s := String.ofList cs) (by simpa [Blank] using hrest)
    rw [runs, String.toList_ofList] at hnone
    rw [runs, runs, String.toList_append, hcs, List.splitOnP_append_cons _ _ hc,
      List.filter_append, List.map_append, hnone, List.append_nil]

/-- **Words with a blank between them are read back.** -/
theorem runs_intercalate (h : ∀ w ∈ ws, IsRun w) : runs (String.intercalate " " ws) = ws := by
  have hspace : Blank " " := by decide
  induction ws with
  | nil => exact runs_of_blank (by decide)
  | cons w ws ih =>
    obtain ⟨hw, hws⟩ := List.forall_mem_cons.mp h
    cases ws with
    | nil => rw [String.intercalate_singleton, runs_of_run hw]
    | cons w' ws =>
      have hclosed : Closed (w ++ " ") := by simp [Closed, show isBlank ' ' = true by decide]
      rw [String.intercalate_cons_cons, runs_append hclosed, runs_append_blank hspace,
        runs_of_run hw, ih hws, List.singleton_append]

end Text

/-! ### Prefactors -/

namespace Symmetrization

variable {c : Contraction} {s : Symmetrization}

theorem Needs.required_pos {found : List (Ladder (Index × Index))} (h : Needs c found s) :
    0 < s.required := by
  rw [h.required_eq]
  exact orders_pos _

theorem prefactor_pos (h : ofContraction c = .ok s) : 0 < s.prefactor := by
  obtain ⟨_, hneeds⟩ := ofContraction_eq_ok_iff.mp h
  exact Nat.div_pos hneeds.required_le hneeds.required_pos

/-- **Nothing is reordered in a result without indices.** -/
theorem prefactor_eq_one (h : ofContraction c = .ok s) (hscalar : c.result.isScalar = true) :
    s.prefactor = 1 := by
  obtain ⟨_, hneeds⟩ := ofContraction_eq_ok_iff.mp h
  have himplied : s.implied = 1 := by
    -- every string of the result is empty and has one order
    rw [hneeds.implied_eq, orders_eq_prod]
    refine List.prod_eq_one fun n hn => ?_
    obtain ⟨l, hl, rfl⟩ := List.mem_map.mp hn
    obtain ⟨g, hg, hl⟩ := List.mem_flatMap.mp hl
    have hempty : g.isEmpty = true := List.all_eq_true.mp hscalar g hg
    simp only [Ladder.isEmpty, Bool.and_eq_true, List.isEmpty_iff] at hempty
    have hnil : l = [] := by
      rcases List.mem_pair.mp hl with rfl | rfl
      · exact hempty.1
      · exact hempty.2
    rw [hnil]
    rfl
  have hrequired : s.required = 1 := by
    have hpos := hneeds.required_pos
    have hle := hneeds.required_le
    omega
  rw [prefactor, himplied, hrequired]

end Symmetrization

theorem Term.ofContraction_eq_ok_iff {c : Contraction} {t : Term} :
    Term.ofContraction c = .ok t ↔
      t.contraction = c ∧ Symmetrization.ofContraction c = .ok t.symmetrization := by
  unfold Term.ofContraction
  cases Symmetrization.ofContraction c with
  | error e => simp [Except.map]
  | ok s =>
    obtain ⟨c', s'⟩ := t
    simp [Except.map, eq_comm]

/-! ### Signs and magnitudes -/

namespace Coefficient

/-- What a sign multiplies by. -/
def sign? (word : String) : Option Rat :=
  if word = "+" then some 1 else if word = "-" then some (-1) else none

theorem exists_sign?_sign (q : Rat) : ∃ e, sign? (sign q) = some e ∧ e * magnitude q = q := by
  by_cases hq : q < 0
  · exact ⟨-1, by rw [sign, if_pos hq]; rfl, by rw [magnitude, if_pos hq, neg_one_mul, neg_neg]⟩
  · exact ⟨1, by rw [sign, if_neg hq]; rfl, by rw [magnitude, if_neg hq, one_mul]⟩

theorem isRun_sign (q : Rat) : IsRun (sign q) := by
  have hplus : IsRun "+" := by decide
  have hminus : IsRun "-" := by decide
  unfold sign
  split
  · exact hminus
  · exact hplus

end Coefficient

namespace Sequant

/-! ### Reading a coefficient -/

/-- A word that shows indices in braces. -/
def Braced (w : String) : Prop := '\x7b' ∈ w.toList

instance : DecidablePred Braced := fun w => inferInstanceAs (Decidable ('\x7b' ∈ w.toList))

/-- The product of the numbers that words stand for. -/
def product? : List String → Option Rat
  | [] => some 1
  | w :: ws => do return (← ratio? w.toList) * (← product? ws)

/-- The coefficient of a line: its sign times the numbers in front of the first word with a
brace. -/
def coefficient? (text : String) : Option Rat :=
  match runs text with
  | [] => none
  | w :: ws => do
    return (← Coefficient.sign? w) * (← product? (ws.takeWhile fun w => ¬ Braced w))

/-- Words that each write a number, and the product of these numbers. -/
inductive Multiplies : List String → Rat → Prop
  /-- No number. -/
  | nil : Multiplies [] 1
  /-- A number and those that follow. -/
  | cons {w : String} {ws : List String} {p q : Rat} (head : WritesRatio w.toList p)
    (tail : Multiplies ws q) : Multiplies (w :: ws) (p * q)

namespace Multiplies

variable {us ws : List String} {p q : Rat}

theorem append (hus : Multiplies us p) (hws : Multiplies ws q) :
    Multiplies (us ++ ws) (p * q) := by
  induction hus with
  | nil => rwa [one_mul]
  | cons head _ ih =>
    rw [mul_assoc]
    exact .cons head ih

theorem product?_eq (h : Multiplies ws q) : product? ws = some q := by
  induction h with
  | nil => rfl
  | cons head _ ih =>
    rw [product?, head.ratio?_eq, ih]
    rfl

/-- Each of the words writes a number. -/
theorem exists_writesRatio (h : Multiplies ws q) : ∀ w ∈ ws, ∃ p, WritesRatio w.toList p := by
  induction h with
  | nil => simp
  | cons head _ ih => exact List.forall_mem_cons.mpr ⟨⟨_, head⟩, ih⟩

theorem not_braced (h : Multiplies ws q) : ∀ w ∈ ws, ¬ Braced w := by
  intro w hw hbrace
  obtain ⟨p, hp⟩ := h.exists_writesRatio w hw
  rcases hp.isDigit_of_mem hbrace with hdigit | hminus | hslash
  · exact absurd hdigit (by decide)
  · exact absurd hminus (by decide)
  · exact absurd hslash (by decide)

end Multiplies

/-! ### Numbers in a line -/

variable {t : Term}

/-- The word for the inverse of the prefactor, if the line of a term shows it. -/
def inverseWords (t : Term) : List String :=
  if t.contraction.result.isScalar ∨ t.symmetrization.prefactor = 1 then []
  else ["1/" ++ toString t.symmetrization.prefactor]

/-- The words between the sign and the operators. -/
def numberWords (t : Term) : List String :=
  Coefficient.magnitudeWords t.contraction.factor ++ inverseWords t

theorem multiplies_magnitudeWords (q : Rat) :
    Multiplies (Coefficient.magnitudeWords q) (Coefficient.magnitude q) := by
  unfold Coefficient.magnitudeWords
  split
  · next hone => exact hone ▸ .nil
  · have hsingle := Multiplies.cons (writesRatio_ratioText (Coefficient.magnitude q)) .nil
    rwa [mul_one] at hsingle

/-- **The inverse of the prefactor is left out only where it is one.** -/
theorem multiplies_inverseWords
    (h : Symmetrization.ofContraction t.contraction = .ok t.symmetrization) :
    Multiplies (inverseWords t) (1 / t.symmetrization.prefactor) := by
  unfold inverseWords
  split
  · next hleft =>
    have hone : t.symmetrization.prefactor = 1 := hleft.elim (Symmetrization.prefactor_eq_one h) id
    rw [hone, Nat.cast_one, div_one]
    exact .nil
  · have hpos := Symmetrization.prefactor_pos h
    have hsingle := Multiplies.cons (writesRatio_inverse hpos.ne') .nil
    rwa [mul_one] at hsingle

theorem multiplies_numberWords
    (h : Symmetrization.ofContraction t.contraction = .ok t.symmetrization) :
    Multiplies (numberWords t)
      (Coefficient.magnitude t.contraction.factor * (1 / t.symmetrization.prefactor)) :=
  (multiplies_magnitudeWords _).append (multiplies_inverseWords h)

/-! ### Operators in a line -/

/-- The words for the antisymmetrizer, if the line of a term shows it, and for the tensors. -/
def operatorWords (t : Term) : List String :=
  (if t.contraction.result.isScalar then []
    else ["A" ++ labels t.contraction.result.annihilators t.contraction.result.creators])
    ++ t.contraction.tensors.map tensor

theorem solid_label (x : Index) : Solid (label x) := by
  have hletter (s : Space) : Solid (letter s) := by cases s <;> decide
  exact (hletter x.space).append (solid_toString _)

theorem solid_labels (xs ys : List Index) : Solid (labels xs ys) := by
  have hlist (zs : List Index) : Solid (String.intercalate "," (zs.map label)) := by
    refine Solid.intercalate (by decide) fun w hw => ?_
    obtain ⟨x, -, rfl⟩ := List.mem_map.mp hw
    exact solid_label x
  have hopen : Solid "\x7b" := by decide
  have hmiddle : Solid ";" := by decide
  have hclose : Solid "\x7d" := by decide
  exact (((hopen.append (hlist xs)).append hmiddle).append (hlist ys)).append hclose

theorem solid_name {u : Tensor} (h : Solid u.name) : Solid (name u) := by
  have hone : Solid "f" := by decide
  have htwo : Solid "g" := by decide
  unfold name
  split
  · split <;> assumption
  · exact h

/-- What ends in labels is braced. -/
theorem braced_append_labels (s : String) (xs ys : List Index) : Braced (s ++ labels xs ys) := by
  simp [Braced, labels]

/-- An operator is a name without blanks, followed by its labels. -/
theorem exists_append_labels (hnames : t.contraction.PlainNames) {w : String}
    (hw : w ∈ operatorWords t) : ∃ s xs ys, w = s ++ labels xs ys ∧ Solid s := by
  rcases List.mem_append.mp hw with hw | hw
  · split at hw
    · exact absurd hw List.not_mem_nil
    · exact ⟨"A", _, _, List.mem_singleton.mp hw, by decide⟩
  · obtain ⟨u, hu, rfl⟩ := List.mem_map.mp hw
    exact ⟨_, _, _, rfl, solid_name (hnames u (List.mem_cons_of_mem _ hu))⟩

theorem braced_of_mem_operatorWords (hnames : t.contraction.PlainNames) :
    ∀ w ∈ operatorWords t, Braced w := by
  intro w hw
  obtain ⟨s, xs, ys, rfl, -⟩ := exists_append_labels hnames hw
  exact braced_append_labels s xs ys

theorem isRun_of_mem_operatorWords (hnames : t.contraction.PlainNames) :
    ∀ w ∈ operatorWords t, IsRun w := by
  intro w hw
  obtain ⟨s, xs, ys, rfl, hs⟩ := exists_append_labels hnames hw
  exact ⟨List.ne_nil_of_mem (braced_append_labels s xs ys), hs.append (solid_labels xs ys)⟩

/-! ### The line -/

theorem line_eq (t : Term) :
    line t = "  " ++ String.intercalate " "
      (Coefficient.sign t.contraction.factor :: (numberWords t ++ operatorWords t)) ++ "\n" := by
  have hsplit : antisymmetrizer t ++ t.contraction.tensors.map tensor =
      inverseWords t ++ operatorWords t := by
    unfold antisymmetrizer inverseWords operatorWords
    by_cases hscalar : t.contraction.result.isScalar = true
    · simp [hscalar]
    · by_cases hone : t.symmetrization.prefactor = 1 <;> simp [hscalar, hone]
  rw [line, numberWords, List.append_assoc, List.append_assoc, List.cons_append, hsplit]

/-- **The words of a line** are the sign, the numbers and the operators. -/
theorem runs_line (hnames : t.contraction.PlainNames)
    (h : Symmetrization.ofContraction t.contraction = .ok t.symmetrization) :
    runs (line t) =
      Coefficient.sign t.contraction.factor :: (numberWords t ++ operatorWords t) := by
  have hindent : Blank "  " := by decide
  have hbreak : Blank "\n" := by decide
  have hwords : ∀ w ∈ Coefficient.sign t.contraction.factor ::
      (numberWords t ++ operatorWords t), IsRun w := by
    refine List.forall_mem_cons.mpr ⟨Coefficient.isRun_sign _, List.forall_mem_append.mpr
      ⟨fun w hw => ?_, isRun_of_mem_operatorWords hnames⟩⟩
    obtain ⟨p, hp⟩ := (multiplies_numberWords h).exists_writesRatio w hw
    exact hp.isRun
  rw [line_eq, runs_append_blank hbreak, runs_append hindent.closed, runs_of_blank hindent,
    runs_intercalate hwords, List.nil_append]

/-- The numbers of a line end where its operators begin. -/
theorem takeWhile_not_braced (hnames : t.contraction.PlainNames)
    (h : Symmetrization.ofContraction t.contraction = .ok t.symmetrization) :
    ((numberWords t ++ operatorWords t).takeWhile fun w => ¬ Braced w) = numberWords t := by
  have hnumbers : ∀ w ∈ numberWords t, decide (¬ Braced w) = true := fun w hw =>
    decide_eq_true ((multiplies_numberWords h).not_braced w hw)
  -- a line without operators is possible: numbers then go on to its end
  have hoperators : (operatorWords t).takeWhile (fun w => ¬ Braced w) = [] := by
    cases hwords : operatorWords t with
    | nil => rfl
    | cons w ws =>
      have hbraced := braced_of_mem_operatorWords hnames w (hwords ▸ List.mem_cons_self)
      exact List.takeWhile_cons_of_neg (by simpa using hbraced)
  rw [List.takeWhile_append_of_pos hnumbers, hoperators, List.append_nil]

/-- **A line shows the factor over the prefactor.**  A result without indices shows neither an
antisymmetrizer nor a prefactor, which is one. -/
theorem coefficient?_line {r : Record} {c : Contraction} (hr : Contraction.ofRecord r = .ok c)
    (hnames : r.PlainNames) (ht : Term.ofContraction c = .ok t) :
    0 < t.symmetrization.prefactor ∧
      coefficient? (line t) = some (c.factor / t.symmetrization.prefactor) ∧
      (c.result.isScalar = true → t.symmetrization.prefactor = 1 ∧
        runs (line t) = Coefficient.sign c.factor ::
          (Coefficient.magnitudeWords c.factor ++ c.tensors.map tensor)) := by
  obtain ⟨rfl, hs⟩ := Term.ofContraction_eq_ok_iff.mp ht
  have hplain := Contraction.plainNames_of_ofRecord hr hnames
  refine ⟨Symmetrization.prefactor_pos hs, ?_, fun hscalar =>
    ⟨Symmetrization.prefactor_eq_one hs hscalar, ?_⟩⟩
  · obtain ⟨e, hsign, hfactor⟩ := Coefficient.exists_sign?_sign t.contraction.factor
    have hproduct := (multiplies_numberWords hs).product?_eq
    have hread : coefficient? (line t) = some (e *
        (Coefficient.magnitude t.contraction.factor * (1 / t.symmetrization.prefactor))) := by
      rw [coefficient?, runs_line hplain hs]
      simp only [hsign, takeWhile_not_braced hplain hs, hproduct]
      rfl
    rw [hread, ← mul_assoc, hfactor, mul_one_div]
  · rw [runs_line hplain hs, numberWords, inverseWords, operatorWords, if_pos (.inl hscalar),
      if_pos hscalar, List.append_nil, List.nil_append]

/-- The regular record with a factor of its own. -/
def halved : Record := { Symmetrization.regular with factor := ⟨1, -1, 1 / 2⟩ }

def halvedTerm : Term where
  contraction := { Symmetrization.regularContraction with factor := -1 / 2 }
  symmetrization := ⟨⟨[[⟨0, .occupied, 0, .creator⟩, ⟨1, .occupied, 0, .creator⟩]], []⟩, 8, 2⟩

/-- A half and the inverse of four stand in two words, behind a minus. -/
theorem halved_coefficient?_line :
    Contraction.ofRecord halved = .ok halvedTerm.contraction ∧ halved.PlainNames ∧
      Term.ofContraction halvedTerm.contraction = .ok halvedTerm ∧
      coefficient? (line halvedTerm) = some (-1 / 8) := by
  have hrecord : Contraction.ofRecord halved = .ok halvedTerm.contraction := by decide +kernel
  have hnames : halved.PlainNames := by decide +kernel
  have hterm : Term.ofContraction halvedTerm.contraction = .ok halvedTerm := by decide +kernel
  refine ⟨hrecord, hnames, hterm, ?_⟩
  rw [(coefficient?_line hrecord hnames hterm).2.1]
  decide +kernel

end Sequant
end TensorContraction
