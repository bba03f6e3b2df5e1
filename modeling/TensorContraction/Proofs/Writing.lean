import Mathlib.Data.Rat.Lemmas
import TensorContraction.Text.Numeral

/-!
# What can be read back from a text

A text that is put together from parts with a mark between them can be taken apart again if the
mark does not occur in the parts on one side of it: the first mark, or the last one, is where the
text has to be cut.  A run of digits needs no mark behind it, since it ends where no digit stands.
Lists of words and numbers are written in this way, so that the text of either determines it.

## Main results

* `append_cons_inj`, `append_cons_inj_last` — cutting at the first mark and at the last.
* `run_append_inj` — cutting behind a run.
* `intercalate_inj` — words with a mark between them.
* `Text.integerText_inj`, `Text.ratioText_inj` — numbers are known by their texts.
-/

namespace TensorContraction

/-! ### Cutting at the first and at the last mark -/

section Cut

variable {α : Type} {m : α} {xs ys xs' ys' : List α}

theorem append_cons_inj (hxs : m ∉ xs) (hxs' : m ∉ xs') :
    xs ++ m :: ys = xs' ++ m :: ys' ↔ xs = xs' ∧ ys = ys' := by
  constructor
  · intro h
    rcases List.append_eq_append_iff.mp h with ⟨as, rfl, has⟩ | ⟨as, rfl, has⟩
    · cases as with
      | nil => simpa using has
      | cons a as =>
        obtain ⟨rfl, -⟩ := List.cons.inj has
        simp at hxs'
    · cases as with
      | nil => simpa [eq_comm] using has
      | cons a as =>
        obtain ⟨rfl, -⟩ := List.cons.inj has
        simp at hxs
  · rintro ⟨rfl, rfl⟩
    rfl

theorem append_cons_inj_last (hys : m ∉ ys) (hys' : m ∉ ys') :
    xs ++ m :: ys = xs' ++ m :: ys' ↔ xs = xs' ∧ ys = ys' := by
  rw [← List.reverse_inj, List.reverse_append, List.reverse_append, List.reverse_cons,
    List.reverse_cons, List.append_assoc, List.append_assoc, List.singleton_append,
    List.singleton_append, append_cons_inj (by simpa using hys) (by simpa using hys'),
    List.reverse_inj, List.reverse_inj, and_comm]

/-- A run of entries that pass a test ends at the first that does not. -/
theorem run_append_inj {p : α → Bool} (hxs : ∀ x ∈ xs, p x = true)
    (hxs' : ∀ x ∈ xs', p x = true) (hys : ∀ y ∈ ys.head?, p y = false)
    (hys' : ∀ y ∈ ys'.head?, p y = false) :
    xs ++ ys = xs' ++ ys' ↔ xs = xs' ∧ ys = ys' := by
  have hrun {as bs : List α} (has : ∀ a ∈ as, p a = true)
      (hbs : ∀ b ∈ bs.head?, p b = false) : (as ++ bs).takeWhile p = as := by
    rw [List.takeWhile_append_of_pos has]
    cases bs with
    | nil => simp
    | cons b bs => simp [hbs b rfl]
  constructor
  · intro h
    obtain rfl : xs = xs' := by rw [← hrun hxs hys, h, hrun hxs' hys']
    exact ⟨rfl, List.append_cancel_left h⟩
  · rintro ⟨rfl, rfl⟩
    rfl

theorem intercalate_cons (sep x : List α) (xss : List (List α)) :
    sep.intercalate (x :: xss) = x ++ xss.flatMap (sep ++ ·) := by
  induction xss generalizing x with
  | nil => simp
  | cons y xss ih => rw [List.intercalate_cons_cons, ih, List.flatMap_cons, List.append_assoc,
      List.append_assoc]

theorem intercalate_inj {xss yss : List (List α)} [DecidableEq α]
    (hxs : ∀ xs ∈ xss, xs ≠ [] ∧ m ∉ xs) (hys : ∀ ys ∈ yss, ys ≠ [] ∧ m ∉ ys) :
    [m].intercalate xss = [m].intercalate yss ↔ xss = yss := by
  have hnil {zss : List (List α)} (hzs : ∀ zs ∈ zss, zs ≠ [] ∧ m ∉ zs) :
      [m].intercalate zss = [] ↔ zss = [] := by
    cases zss with
    | nil => simp
    | cons z zss => simp [intercalate_cons, (hzs z List.mem_cons_self).1]
  constructor
  · intro h
    by_cases hx : xss = []
    · subst hx
      exact ((hnil hys).mp h.symm).symm
    · have hy : yss ≠ [] := fun hy => hx ((hnil hxs).mp (h.trans ((hnil hys).mpr hy)))
      rw [← List.splitOn_intercalate m (fun l hl => (hxs l hl).2) hx, h,
        List.splitOn_intercalate m (fun l hl => (hys l hl).2) hy]
  · rintro rfl
    rfl

theorem mem_intercalate {sep : List α} {xss : List (List α)} {x : α}
    (h : x ∈ sep.intercalate xss) : x ∈ sep ∨ ∃ xs ∈ xss, x ∈ xs := by
  cases xss with
  | nil => simp at h
  | cons xs xss =>
    rw [intercalate_cons, List.mem_append, List.mem_flatMap] at h
    rcases h with h | ⟨ys, hys, h⟩
    · exact .inr ⟨xs, List.mem_cons_self, h⟩
    · exact (List.mem_append.mp h).imp_right fun h => ⟨ys, List.mem_cons_of_mem _ hys, h⟩

/-- Runs that each end in the mark are known by what they make together. -/
theorem flatMap_ended_inj {β : Type} {f : β → List α} {bs cs : List β}
    (hbs : ∀ b ∈ bs, m ∉ f b) (hcs : ∀ c ∈ cs, m ∉ f c) :
    (bs.flatMap fun b => f b ++ [m]) = (cs.flatMap fun c => f c ++ [m]) ↔
      bs.map f = cs.map f := by
  induction bs generalizing cs with
  | nil => cases cs <;> simp
  | cons b bs ih =>
    cases cs with
    | nil => simp
    | cons c cs =>
      rw [List.forall_mem_cons] at hbs hcs
      rw [List.flatMap_cons, List.flatMap_cons, List.append_assoc, List.append_assoc,
        List.singleton_append, List.singleton_append, append_cons_inj hbs.1 hcs.1,
        ih hbs.2 hcs.2, List.map_cons, List.map_cons, List.cons.injEq]

end Cut

/-! ### Numbers -/

namespace Text

variable {n : Nat}

theorem toList_toString (n : Nat) : (toString n).toList = Nat.toDigits 10 n := by
  rw [Nat.toString_eq_repr, Nat.toList_repr]

theorem isDigit_of_mem_toDigits {c : Char} (h : c ∈ Nat.toDigits 10 n) : c.isDigit = true :=
  Nat.isDigit_of_mem_toDigits (by decide) (by decide) h

/-- A number is known by its digits. -/
theorem toDigits_inj {m n : Nat} : Nat.toDigits 10 m = Nat.toDigits 10 n ↔ m = n := by
  constructor
  · intro h
    rw [← Nat.ofDigitChars_ten_toDigits (n := m), h, Nat.ofDigitChars_ten_toDigits]
  · rintro rfl
    rfl

/-- The characters of an integer. -/
theorem toList_integerText (z : Int) :
    (integerText z).toList = (if z < 0 then ['-'] else []) ++ Nat.toDigits 10 z.natAbs := by
  cases z with
  | ofNat n => exact toList_toString n
  | negSucc n =>
    rw [integerText, String.toList_append, toList_toString, if_pos (Int.negSucc_lt_zero n)]
    rfl

theorem isDigit_of_mem_integerText {z : Int} {c : Char} (h : c ∈ (integerText z).toList) :
    c.isDigit = true ∨ c = '-' := by
  rw [toList_integerText, List.mem_append] at h
  rcases h with h | h
  · split at h
    · exact .inr (List.mem_singleton.mp h)
    · exact absurd h List.not_mem_nil
  · exact .inl (isDigit_of_mem_toDigits h)

theorem minus_mem_integerText_iff {z : Int} : '-' ∈ (integerText z).toList ↔ z < 0 := by
  have hdigits : '-' ∉ Nat.toDigits 10 z.natAbs := fun h =>
    absurd (isDigit_of_mem_toDigits h) (by decide)
  rw [toList_integerText, List.mem_append, or_iff_left hdigits]
  split
  · next h => simp [h]
  · next h => simp [h]

/-- **An integer is known by its text.** -/
theorem integerText_inj {y z : Int} : (integerText y).toList = (integerText z).toList ↔ y = z := by
  constructor
  · intro h
    have hsign : y < 0 ↔ z < 0 := by
      rw [← minus_mem_integerText_iff, h, minus_mem_integerText_iff]
    rw [toList_integerText, toList_integerText] at h
    simp only [hsign] at h
    have hmagnitude := toDigits_inj.mp (List.append_cancel_left h)
    omega
  · rintro rfl
    rfl

theorem slash_notMem_integerText (z : Int) : '/' ∉ (integerText z).toList := by
  intro h
  rcases isDigit_of_mem_integerText h with h | h
  · exact absurd h (by decide)
  · exact absurd h (by decide)

theorem toList_ratioText (q : Rat) :
    (ratioText q).toList = if q.den = 1 then (integerText q.num).toList
      else (integerText q.num).toList ++ '/' :: Nat.toDigits 10 q.den := by
  unfold ratioText
  split
  · rfl
  · rw [String.toList_append, String.toList_append, toList_toString, List.append_assoc]
    rfl

theorem isDigit_of_mem_ratioText {q : Rat} {c : Char} (h : c ∈ (ratioText q).toList) :
    c.isDigit = true ∨ c = '-' ∨ c = '/' := by
  rw [toList_ratioText] at h
  split at h
  · exact (isDigit_of_mem_integerText h).imp_right .inl
  · rcases List.mem_append.mp h with h | h
    · exact (isDigit_of_mem_integerText h).imp_right .inl
    · rcases List.mem_cons.mp h with h | h
      · exact .inr (.inr h)
      · exact .inl (isDigit_of_mem_toDigits h)

theorem slash_mem_ratioText_iff {q : Rat} : '/' ∈ (ratioText q).toList ↔ q.den ≠ 1 := by
  rw [toList_ratioText]
  split
  · next h => simp [h, slash_notMem_integerText]
  · next h => simp [h]

/-- **A rational number is known by its text.** -/
theorem ratioText_inj {p q : Rat} : (ratioText p).toList = (ratioText q).toList ↔ p = q := by
  constructor
  · intro h
    have hwhole : p.den = 1 ↔ q.den = 1 := by
      rw [← not_iff_not, ← ne_eq, ← ne_eq, ← slash_mem_ratioText_iff, h, slash_mem_ratioText_iff]
    rw [toList_ratioText, toList_ratioText] at h
    by_cases hp : p.den = 1
    · rw [if_pos hp, if_pos (hwhole.mp hp), integerText_inj] at h
      exact Rat.ext h (hp.trans (hwhole.mp hp).symm)
    · rw [if_neg hp, if_neg fun hq => hp (hwhole.mpr hq)] at h
      obtain ⟨hnum, hden⟩ := (append_cons_inj (slash_notMem_integerText _)
        (slash_notMem_integerText _)).mp h
      exact Rat.ext (integerText_inj.mp hnum) (toDigits_inj.mp hden)
  · rintro rfl
    rfl

end Text
end TensorContraction
