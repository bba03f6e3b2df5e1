import Mathlib.Data.List.TakeWhile
import TensorContraction.Proofs.Spelling
import TensorContraction.Record.Grammar

/-!
# Readers of phrases

A reader of some phrase takes the words of that phrase off the front and nothing else.  Some
readers go on for as long as they can, so they take a phrase only where what follows lets
them stop.  Putting readers together puts their phrases together, as long as each phrase
opens with a word that lets the reader before it stop.

## Main definitions

* `AtSection`, `PastSignatures` — where readers can stop.
* `Reader.Reads` — a reader takes exactly the words of a phrase.

## Main results

* `Reader.Reads.bind`, `Reader.Reads.thenSection` — one reader after another.
* `Reader.reads_operator`, `Reader.reads_arc`, `Reader.reads_number` — the parts of a record.
-/

namespace TensorContraction

open Spelling Text

namespace Reader

variable {α β : Type} {ws rest : List Word}

/-! ### Steps of reading -/

theorem bind_eq_ok_iff {p : Reader α} {f : α → Reader β} {b : β} :
    (p >>= f) ws = .ok (b, rest) ↔ ∃ a mid, p ws = .ok (a, mid) ∧ f a mid = .ok (b, rest) := by
  change (p ws >>= fun x => f x.1 x.2) = _ ↔ _
  rw [Check.bind_eq_ok_iff]
  simp only [Prod.exists]

theorem pure_eq_ok_iff {a b : α} :
    (pure a : Reader α) ws = .ok (b, rest) ↔ a = b ∧ ws = rest := by
  change Except.ok (a, ws) = _ ↔ _
  rw [Except.ok.injEq, Prod.mk.injEq]

theorem each_eq_ok_iff {f : α → Except Halt β} {xs : List α} {ys : List β} :
    each f xs ws = .ok (ys, rest) ↔ xs.mapM f = .ok ys ∧ ws = rest := by
  rw [each, Check.map_eq_ok_iff]
  constructor
  · intro h
    obtain ⟨zs, hzs, heq⟩ := h
    obtain ⟨rfl, rfl⟩ := Prod.ext_iff.mp heq
    exact ⟨hzs, rfl⟩
  · rintro ⟨hys, rfl⟩
    exact ⟨ys, hys, rfl⟩

theorem takeWhile_eq_ok_iff {test : Word → Bool} {xs : List Word} :
    takeWhile test ws = .ok (xs, rest) ↔
      ws = xs ++ rest ∧ (∀ w ∈ xs, test w = true) ∧ ∀ w ∈ rest.head?, test w = false := by
  rw [takeWhile, Except.ok.injEq, Prod.mk.injEq]
  constructor
  · rintro ⟨rfl, rfl⟩
    refine ⟨List.takeWhile_append_dropWhile.symm, fun w hw => List.mem_takeWhile_imp hw, ?_⟩
    intro w hw
    have hdrop := List.head?_dropWhile_not test ws
    rwa [Option.mem_def.mp hw] at hdrop
  · rintro ⟨rfl, hxs, hrest⟩
    rw [List.takeWhile_append_of_pos hxs, List.dropWhile_append_of_pos hxs]
    cases rest with
    | nil => simp
    | cons w rest => simp [hrest w rfl]

end Reader

/-! ### Words -/

namespace Text.Word

variable {w : Word}

theorem integer_eq_ok_iff {n : Int} : w.integer = .ok n ↔ Integer w.text n := by
  rw [Spelling.Integer, ← integer?_eq_some_iff, integer, chars]
  cases integer? w.text.toList <;> simp [refuse]

theorem decimal_eq_ok_iff {q : Rat} : w.decimal = .ok q ↔ Decimal w.text q := by
  rw [Spelling.Decimal, ← decimal?_eq_some_iff, decimal, chars]
  cases decimal? w.text.toList <;> simp [refuse]

theorem flag_eq_ok_iff {b : Bool} : w.flag = .ok b ↔ Flag w.text b := by
  unfold flag Spelling.Flag
  split
  · next h => simp [h, eq_comm]
  · next hT =>
    split
    · next h => simp [h, eq_comm]
    · next hF => simp [hT, hF, refuse]

theorem signatures_eq_ok_iff {ss : List Signature} :
    w.signatures = .ok ss ↔ w.text.toList = SignatureText.writeAll ss := by
  rw [← SignatureText.readAll_eq_ok_iff, signatures, chars]
  split <;> next h => simp [h, refuse]

theorem isTag_iff : w.isTag = true ↔ w.text.toList.head? = some '[' := by
  rw [isTag, chars, beq_iff_eq]

theorem isSignatures_iff : w.isSignatures = true ↔ w.text.toList.head? = some '(' := by
  rw [isSignatures, chars, beq_iff_eq]

end Text.Word

/-! ### Where readers stop -/

/-- Nothing follows, or a section opens. -/
def AtSection (ws : List String) : Prop := ∀ w ∈ ws.head?, w.toList.head? = some '['

/-- No more signatures follow. -/
def PastSignatures (ws : List String) : Prop := ∀ w ∈ ws.head?, w.toList.head? ≠ some '('

theorem AtSection.pastSignatures {ws : List String} (h : AtSection ws) : PastSignatures ws := by
  intro w hw
  rw [h w hw]
  decide

theorem atSection_iff {ws : List Word} :
    AtSection (ws.map (·.text)) ↔ ∀ w ∈ ws.head?, (!w.isTag) = false := by
  cases ws with
  | nil => simp [AtSection]
  | cons w ws => simp [AtSection, Word.isTag_iff]

theorem pastSignatures_iff {ws : List Word} :
    PastSignatures (ws.map (·.text)) ↔ ∀ w ∈ ws.head?, w.isSignatures = false := by
  cases ws with
  | nil => simp [PastSignatures]
  | cons w ws => simp [PastSignatures, ← Word.isSignatures_iff]

theorem Tag.atSection (t : Tag) (ws : List String) : AtSection (t.text :: ws) := by
  intro w hw
  obtain rfl : t.text = w := by simpa using hw
  cases t <;> decide

/-! ### Readers of phrases -/

namespace Reader

variable {α β : Type} {ws rest : List Word} {p : Reader α} {P : Phrase α} {s t : List String → Prop}

/-- Reading takes exactly the words of a phrase off the front, where what follows lets it
stop. -/
def Reads (p : Reader α) (P : Phrase α) (stop : List String → Prop) : Prop :=
  ∀ ws a rest, p ws = .ok (a, rest) ↔
    ∃ taken, ws = taken ++ rest ∧ P (taken.map (·.text)) a ∧ stop (rest.map (·.text))

/-- Any words, or none. -/
def Anything (_ : List String) : Prop := True

/-- A phrase with the word that opens a section in front of it. -/
def Tagged (t : Tag) (P : Phrase α) : Phrase α := fun ws a => ∃ us, ws = t.text :: us ∧ P us a

/-- A phrase and another one that may depend on what the first says. -/
def Then (P : Phrase α) (Q : α → Phrase β) : Phrase β := fun ws b =>
  ∃ us vs a, ws = us ++ vs ∧ P us a ∧ Q a vs b

/-- One reader after another, if the second phrase lets the first reader stop. -/
theorem Reads.bind {f : α → Reader β} {Q : α → Phrase β} (hp : Reads p P s)
    (hf : ∀ a, Reads (f a) (Q a) t) (hstop : ∀ a us b rest, Q a us b → t rest → s (us ++ rest)) :
    Reads (p >>= f) (Then P Q) t := by
  intro ws b rest
  simp only [bind_eq_ok_iff, hp ws, hf _ _ b rest]
  constructor
  · intro h
    obtain ⟨a, _, ⟨us, rfl, hus, -⟩, vs, rfl, hvs, hrest⟩ := h
    refine ⟨us ++ vs, (List.append_assoc us vs rest).symm, ⟨_, _, a, ?_, hus, hvs⟩, hrest⟩
    exact List.map_append
  · intro h
    obtain ⟨taken, rfl, ⟨us', vs', a, heq, hus, hvs⟩, hrest⟩ := h
    obtain ⟨us, vs, rfl, rfl, rfl⟩ := List.map_eq_append_iff.mp heq
    refine ⟨a, vs ++ rest, ⟨us, List.append_assoc us vs rest, hus, ?_⟩, vs, rfl, hvs, hrest⟩
    rw [List.map_append]
    exact hstop a _ b _ hvs hrest

/-- No words, and a value that is known already. -/
def Value (b : β) : Phrase β := fun ws b' => ws = [] ∧ b = b'

/-- A value made of what a reader returns. -/
theorem Reads.map (hp : Reads p P s) (g : α → β) :
    Reads (p >>= fun a => pure (g a)) (Then P fun a => Value (g a)) s := by
  intro ws b rest
  simp only [bind_eq_ok_iff, pure_eq_ok_iff, hp ws]
  constructor
  · intro h
    obtain ⟨a, _, ⟨taken, rfl, htaken, hrest⟩, rfl, rfl⟩ := h
    exact ⟨taken, rfl, ⟨_, [], a, (List.append_nil _).symm, htaken, rfl, rfl⟩, hrest⟩
  · intro h
    obtain ⟨taken, rfl, ⟨us, _, a, heq, hus, rfl, rfl⟩, hrest⟩ := h
    rw [List.append_nil] at heq
    exact ⟨a, rest, ⟨taken, rfl, heq ▸ hus, hrest⟩, rfl, rfl⟩

/-- After a reader that stops by itself anything may follow. -/
theorem Reads.then {f : α → Reader β} {Q : α → Phrase β} (hp : Reads p P Anything)
    (hf : ∀ a, Reads (f a) (Q a) t) : Reads (p >>= f) (Then P Q) t :=
  hp.bind hf fun _ _ _ _ _ _ => trivial

/-- A section lets any reader stop. -/
theorem Reads.thenSection {γ : Type} {f : α → Reader β} {R : Phrase γ} {Q : α → γ → Phrase β}
    {opening : Tag} (hp : Reads p P s) (hs : ∀ ws, AtSection ws → s ws)
    (hf : ∀ a, Reads (f a) (Then (Tagged opening R) (Q a)) t) :
    Reads (p >>= f) (Then P fun a => Then (Tagged opening R) (Q a)) t := by
  refine hp.bind hf fun a us b rest h _ => hs _ ?_
  obtain ⟨_, vs, c, rfl, ⟨words, rfl, -⟩, -⟩ := h
  exact opening.atSection _

theorem Reads.congr {Q : Phrase α} (hp : Reads p P s) (h : ∀ ws a, P ws a ↔ Q ws a) :
    Reads p Q s := by
  intro ws a rest
  simp only [hp ws a rest, h]

/-! ### Single words -/

theorem next_eq_ok_iff {expected : Expected} {w : Word} :
    next expected ws = .ok (w, rest) ↔ ws = w :: rest := by
  cases ws with
  | nil => simp [next]
  | cons v ws => simp [next]

theorem lift_eq_ok_iff {x : Except Halt α} {a : α} :
    (liftM x : Reader α) ws = .ok (a, rest) ↔ x = .ok a ∧ ws = rest := by
  change (x >>= fun a => .ok (a, ws)) = _ ↔ _
  rw [Check.bind_eq_ok_iff]
  constructor
  · intro h
    obtain ⟨b, rfl, heq⟩ := h
    obtain ⟨rfl, rfl⟩ := Prod.ext_iff.mp (Except.ok.inj heq)
    exact ⟨rfl, rfl⟩
  · rintro ⟨rfl, rfl⟩
    exact ⟨a, rfl, rfl⟩

theorem unexpected_ne_ok {w : Word} {expected : Expected} {a : α} :
    (liftM (w.unexpected expected : Except Halt α) : Reader α) ws ≠ .ok (a, rest) := by
  rw [Ne, lift_eq_ok_iff]
  simp [Word.unexpected, Word.refuse]

theorem reads_one {W : String → α → Prop}
    (h : ∀ ws a rest, p ws = .ok (a, rest) ↔ ∃ w, ws = w :: rest ∧ W w.text a) :
    Reads p (Single W) Anything := by
  intro ws a rest
  rw [h]
  constructor
  · intro h
    obtain ⟨w, rfl, hw⟩ := h
    exact ⟨[w], rfl, ⟨_, rfl, hw⟩, trivial⟩
  · intro h
    obtain ⟨taken, rfl, ⟨v, heq, hv⟩, -⟩ := h
    obtain ⟨w, rfl, rfl⟩ := List.map_eq_singleton_iff.mp heq
    exact ⟨w, rfl, hv⟩

theorem integer_eq_ok_iff {n : Int} :
    integer ws = .ok (n, rest) ↔ ∃ w, ws = w :: rest ∧ Integer w.text n := by
  simp only [integer, bind_eq_ok_iff, next_eq_ok_iff]
  constructor
  · intro h
    obtain ⟨w, mid, rfl, h⟩ := h
    split at h
    · exact absurd h unexpected_ne_ok
    · obtain ⟨hn, rfl⟩ := lift_eq_ok_iff.mp h
      exact ⟨w, rfl, Word.integer_eq_ok_iff.mp hn⟩
  · intro h
    obtain ⟨w, rfl, hn⟩ := h
    refine ⟨w, rest, rfl, ?_⟩
    rw [if_neg fun htag => hn.head?_ne (.inl rfl) (Word.isTag_iff.mp htag)]
    exact lift_eq_ok_iff.mpr ⟨Word.integer_eq_ok_iff.mpr hn, rfl⟩

theorem reads_integer : Reads integer (Single Integer) Anything :=
  reads_one fun _ _ _ => integer_eq_ok_iff

theorem reads_decimal : Reads decimal (Single Decimal) Anything := by
  refine reads_one fun ws q rest => ?_
  simp only [decimal, bind_eq_ok_iff, next_eq_ok_iff, lift_eq_ok_iff, Word.decimal_eq_ok_iff]
  constructor
  · intro h
    obtain ⟨w, mid, rfl, hq, rfl⟩ := h
    exact ⟨w, rfl, hq⟩
  · intro h
    obtain ⟨w, rfl, hq⟩ := h
    exact ⟨w, rest, rfl, hq, rfl⟩

theorem reads_tag (t : Tag) : Reads (tag t) (Single fun w _ => w = t.text) Anything := by
  refine reads_one fun ws u rest => ?_
  simp only [tag, bind_eq_ok_iff, next_eq_ok_iff]
  constructor
  · intro h
    obtain ⟨w, mid, rfl, h⟩ := h
    split at h
    · next hw =>
      obtain ⟨-, rfl⟩ := pure_eq_ok_iff.mp h
      exact ⟨w, rfl, hw⟩
    · exact absurd h unexpected_ne_ok
  · intro h
    obtain ⟨w, rfl, hw⟩ := h
    refine ⟨w, rest, rfl, ?_⟩
    rw [if_pos hw]
    rfl

/-- A section is its opening and what stands in it. -/
theorem reads_section (t : Tag) (hp : Reads p P s) :
    Reads (tag t >>= fun _ => p) (Tagged t P) s := by
  refine ((reads_tag t).then fun _ => hp).congr fun ws a => ?_
  constructor
  · intro h
    obtain ⟨_, us, _, rfl, ⟨w, rfl, rfl⟩, hus⟩ := h
    exact ⟨us, rfl, hus⟩
  · intro h
    obtain ⟨us, rfl, hus⟩ := h
    exact ⟨[t.text], us, (), rfl, ⟨_, rfl, rfl⟩, hus⟩

/-! ### Signatures, operators, arcs -/

theorem reads_signatures : Reads signatures SignatureWords PastSignatures := by
  intro ws ss rest
  simp only [signatures, bind_eq_ok_iff, next_eq_ok_iff]
  constructor
  · intro h
    obtain ⟨first, mid, rfl, h⟩ := h
    split at h
    · next hfirst =>
      simp only [bind_eq_ok_iff, takeWhile_eq_ok_iff, each_eq_ok_iff, pure_eq_ok_iff] at h
      obtain ⟨more, _, ⟨rfl, hmore, hrest⟩, parts, _, ⟨hparts, rfl⟩, rfl, rfl⟩ := h
      refine ⟨first :: more, rfl, ⟨by simp, parts, ?_, rfl⟩, pastSignatures_iff.mpr hrest⟩
      have hall : ∀ w ∈ first :: more, w.isSignatures = true :=
        List.forall_mem_cons.mpr ⟨hfirst, hmore⟩
      rw [List.forall₂_map_left_iff]
      refine ((List.forall₂_and_left _ _).mpr ⟨hall, Check.mapM_eq_ok_iff.mp hparts⟩).imp ?_
      rintro w ss ⟨hw, hss⟩
      have htext := Word.signatures_eq_ok_iff.mp hss
      refine ⟨?_, htext⟩
      rintro rfl
      rw [Word.isSignatures_iff, htext] at hw
      exact absurd hw (by decide)
    · exact absurd h unexpected_ne_ok
  · intro h
    obtain ⟨taken, rfl, ⟨hne, parts, hparts, rfl⟩, hrest⟩ := h
    rw [List.forall₂_map_left_iff] at hparts
    cases taken with
    | nil => exact absurd rfl hne
    | cons first more =>
      have hall : ∀ w ∈ first :: more, w.isSignatures = true := by
        intro w hw
        obtain ⟨ss, -, hss⟩ := Check.exists_right_of_forall₂ hparts hw
        exact Word.isSignatures_iff.mpr hss.head?_eq
      refine ⟨first, more ++ rest, rfl, ?_⟩
      rw [if_pos (hall first List.mem_cons_self)]
      simp only [bind_eq_ok_iff, takeWhile_eq_ok_iff, each_eq_ok_iff, pure_eq_ok_iff]
      refine ⟨more, rest, ⟨rfl, fun w hw => hall w (List.mem_cons_of_mem _ hw),
        pastSignatures_iff.mp hrest⟩, parts, rest, ⟨Check.mapM_eq_ok_iff.mpr ?_, rfl⟩, rfl, rfl⟩
      exact hparts.imp fun w ss hss => Word.signatures_eq_ok_iff.mpr hss.2

theorem reads_operator : Reads operator OperatorWords PastSignatures := by
  intro ws o rest
  have hname (w : Word) : (w.isTag || w.isSignatures) = false ↔ Name w.text := by
    rw [Bool.or_eq_false_iff, ← Bool.not_eq_true, ← Bool.not_eq_true, Word.isTag_iff,
      Word.isSignatures_iff]
    rfl
  simp only [operator, bind_eq_ok_iff, next_eq_ok_iff]
  constructor
  · intro h
    obtain ⟨name, mid, rfl, h⟩ := h
    split at h
    · exact absurd h unexpected_ne_ok
    · next hnot =>
      simp only [bind_eq_ok_iff, next_eq_ok_iff, lift_eq_ok_iff, pure_eq_ok_iff,
        Word.flag_eq_ok_iff] at h
      obtain ⟨flag, _, rfl, transposed, _, ⟨hflag, rfl⟩, slots, _, hslots, rfl, rfl⟩ := h
      obtain ⟨taken, rfl, htaken, hrest⟩ := (reads_signatures _ _ _).mp hslots
      exact ⟨name :: flag :: taken, rfl,
        .parts ((hname name).mp (Bool.eq_false_iff.mpr hnot)) hflag htaken, hrest⟩
  · intro h
    obtain ⟨taken, rfl, hwords, hrest⟩ := h
    generalize htexts : taken.map (·.text) = texts at hwords
    cases hwords with
    | parts hnamed hflag hsignatures =>
      obtain ⟨name, tail, rfl, rfl, htail⟩ := List.map_eq_cons_iff.mp htexts
      obtain ⟨flag, words, rfl, rfl, rfl⟩ := List.map_eq_cons_iff.mp htail
      refine ⟨name, flag :: words ++ rest, rfl, ?_⟩
      rw [if_neg (Bool.eq_false_iff.mp ((hname name).mpr hnamed))]
      simp only [bind_eq_ok_iff, next_eq_ok_iff, lift_eq_ok_iff, pure_eq_ok_iff,
        Word.flag_eq_ok_iff]
      exact ⟨flag, _, rfl, _, _, ⟨hflag, rfl⟩, _, _,
        (reads_signatures _ _ _).mpr ⟨words, rfl, hsignatures, hrest⟩, rfl, rfl⟩

theorem reads_arc : Reads arc ArcWords PastSignatures := by
  refine (reads_integer.then fun first => reads_integer.then fun second =>
    reads_signatures.map fun spaces => (⟨first, second, spaces⟩ : Arc Int)).congr fun ws a => ?_
  constructor
  · intro h
    obtain ⟨_, _, first, rfl, ⟨v, rfl, hv⟩, _, _, second, rfl, ⟨w, rfl, hw⟩, us, _, spaces, rfl,
      hspaces, rfl, rfl⟩ := h
    rw [List.append_nil]
    exact .parts hv hw hspaces
  · intro h
    cases h with
    | @parts v w signatures first second spaces hv hw hspaces =>
      exact ⟨[v], _, first, rfl, ⟨v, rfl, hv⟩, [w], _, second, rfl, ⟨w, rfl, hw⟩, signatures, [],
        spaces, (List.append_nil _).symm, hspaces, rfl, rfl⟩

/-- A number is read in one of two ways, depending on what is behind its sign. -/
def numberFrom (w : Word) : Reader Int :=
  match w.chars with
  | '#' :: [] => integer
  | '#' :: digits => liftM (Word.integer ⟨String.ofList digits, w.line⟩)
  | _ => liftM (w.unexpected .numberSign : Except Halt Int)

theorem number_eq : number = next .numberSign >>= numberFrom := rfl

theorem numberFrom_eq_ok_iff {w : Word} {n : Int} :
    numberFrom w ws = .ok (n, rest) ↔
      (w.text = "#" ∧ ∃ v, ws = v :: rest ∧ Integer v.text n) ∨
        ws = rest ∧ ∃ digits, w.text = "#" ++ digits ∧ Integer digits n := by
  have hsign (v : String) : w.text = "#" ++ v ↔ w.chars = '#' :: v.toList := by
    rw [← String.toList_inj, String.toList_append]
    exact Iff.rfl
  have halone : w.text = "#" ↔ w.chars = ['#'] := hsign ""
  unfold numberFrom
  simp only [hsign, halone]
  rcases hchars : w.chars with _ | ⟨c, cs⟩
  · simp [unexpected_ne_ok]
  by_cases hc : c = '#'
  · subst hc
    cases cs with
    | nil =>
      -- a sign that stands alone has its integer in the next word
      have hnone : ¬ ∃ v : String, ['#'] = '#' :: v.toList ∧ Integer v n := by
        rintro ⟨v, hv, hn⟩
        exact hn.toList_ne_nil (List.cons.inj hv).2.symm
      simp only [hnone, and_false, or_false, true_and]
      exact integer_eq_ok_iff
    | cons d ds =>
      simp only [lift_eq_ok_iff, Word.integer_eq_ok_iff, List.cons.injEq, reduceCtorEq, and_false,
        false_and, false_or, true_and]
      constructor
      · intro h
        exact ⟨h.2, String.ofList (d :: ds), by simp, h.1⟩
      · rintro ⟨rfl, v, hv, hn⟩
        refine ⟨?_, rfl⟩
        rwa [hv, String.ofList_toList]
  · simp [hc, unexpected_ne_ok]

theorem reads_number : Reads number NumberWords Anything := by
  intro ws n rest
  simp only [number_eq, bind_eq_ok_iff, next_eq_ok_iff, numberFrom_eq_ok_iff]
  constructor
  · intro h
    obtain ⟨w, _, rfl, ⟨hw, v, rfl, hv⟩ | ⟨rfl, digits, hw, hdigits⟩⟩ := h
    · refine ⟨[w, v], rfl, ?_, trivial⟩
      rw [List.map_cons, hw]
      exact .apart hv
    · refine ⟨[w], rfl, ?_, trivial⟩
      rw [List.map_singleton, hw]
      exact .together hdigits
  · intro h
    obtain ⟨taken, rfl, hwords, -⟩ := h
    generalize htexts : taken.map (·.text) = texts at hwords
    cases hwords with
    | apart hv =>
      obtain ⟨w, tail, rfl, hw, htail⟩ := List.map_eq_cons_iff.mp htexts
      obtain ⟨v, rfl, rfl⟩ := List.map_eq_singleton_iff.mp htail
      exact ⟨w, v :: rest, rfl, .inl ⟨hw, v, rfl, hv⟩⟩
    | together hdigits =>
      obtain ⟨w, rfl, hw⟩ := List.map_eq_singleton_iff.mp htexts
      exact ⟨w, rest, rfl, .inr ⟨rfl, _, hw, hdigits⟩⟩

end Reader
end TensorContraction
