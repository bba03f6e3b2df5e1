import TensorContraction.Proofs.Refusal

/-!
# What errors of reading point at

An error of reading says what is wrong and where.  Where it names a line, the cause stands
there: a word that is not what the grammar asks for at its place, or a table whose fields do not
fill its columns, which is blamed where its first field stands.  A table without fields is never
ragged, so there always is a first field.  Only a text that ends too early has nothing to point
at, and its last line is named.

A reader may blame a word some time after it has taken it off.  So what a reader may blame is
stated with the words that have been taken before, and a word that is taken passes from those
ahead to those.

## Main definitions

* `Expected.Fits` — the words that are what the grammar asks for.
* `Text.Word.Faulty` — what can be wrong with a word.
* `Cause` — what is wrong with a sequence of words, and on which line.
* `Reader.Blames` — readers that only blame what is wrong.

## Main results

* `Reader.Blames.bind`, `Reader.blames_next`, `Reader.blames_takeWhile` — one reader after another.
* `Reader.blames_table`, `Reader.blames_record` — the grammar of a record.
* `Record.cause_of_readAll` — every error of reading has its cause where it says.
-/

namespace TensorContraction

open Spelling Text

variable {α β κ : Type}

/-! ### Words at fault -/

/-- The words that are what the grammar asks for at some place. -/
def Expected.Fits : Expected → String → Prop
  | tag t, w => w = t.text
  | recordOrFinish, w => w = Tag.contraction.text ∨ w = Tag.finish.text
  | nothing, _ => False
  | numberSign, w => ∃ digits, w = "#" ++ digits
  | integer, w => ∃ n, Integer w n
  | decimal, w => ∃ q, Decimal w q
  | operatorName, w => Name w
  | flag, w => ∃ b, Flag w b
  | signatures, w => ∃ ss, Signatures w ss

/-- What can be wrong with a word. -/
inductive Text.Word.Faulty (w : Word) : Fault → Prop
  /-- The word is not what is asked for. -/
  | unexpected {expected : Expected} (h : ¬ expected.Fits w.text) :
    Faulty w (.unexpected expected w.text)
  /-- The word is no integer. -/
  | notInteger (h : ¬ Expected.integer.Fits w.text) : Faulty w (.notInteger w.text)
  /-- What stands behind a number sign is no integer. -/
  | notNumber {digits : String} (hw : w.text = "#" ++ digits)
    (h : ¬ Expected.integer.Fits digits) : Faulty w (.notInteger digits)
  /-- The word is no decimal. -/
  | notDecimal (h : ¬ Expected.decimal.Fits w.text) : Faulty w (.notDecimal w.text)
  /-- The word is no flag. -/
  | notFlag (h : ¬ Expected.flag.Fits w.text) : Faulty w (.notFlag w.text)
  /-- The word should be signatures and holds a character that names no space. -/
  | unknownSpace {c : Char} (hw : w.isSignatures = true) (hmem : c ∈ w.text.toList)
    (hc : c ≠ 'H' ∧ c ≠ 'P' ∧ c ≠ 'V') : Faulty w (.unknownSpace c)
  /-- The word should be signatures and is not. -/
  | malformedSignatures (hw : w.isSignatures = true) (h : ¬ Expected.signatures.Fits w.text) :
    Faulty w (.malformedSignatures w.text)

/-- The tables of a record and their numbers of columns. -/
inductive TableShape : Tag → Nat → Prop
  /-- The table of the indices on the vertices. -/
  | vertices : TableShape .vertexTable 6
  /-- The table of the indices of the result. -/
  | result : TableShape .resultTable 5

/-- What is wrong with a sequence of words, and on which line. -/
inductive Cause (ws : List Word) : ReadError → Prop
  /-- A word is wrong, and it stands on the line. -/
  | word {w : Word} {fault : Fault} (hw : w ∈ ws) (hfault : w.Faulty fault) :
    Cause ws ⟨w.line, fault⟩
  /-- The words between the opening of a table and the next section or the end do not fill the
  columns, and the first of them stands on the line. -/
  | table (before : List Word) {t : Tag} {columns : Nat} {more after : List Word}
    {opening first : Word}
    (hws : ws = before ++ opening :: (first :: more) ++ after) (hopening : opening.text = t.text)
    (hfields : ∀ w ∈ first :: more, w.isTag = false) (hafter : ∀ w ∈ after.head?, w.isTag = true)
    (hshape : TableShape t columns) (hragged : ¬ columns ∣ (first :: more).length) :
    Cause ws ⟨first.line, .ragged t columns (first :: more).length⟩

/-- What is wrong with some words is wrong with all words before them as well. -/
theorem Cause.of_suffix {ws vs : List Word} {e : ReadError} (h : Cause ws e) (hsub : ws <:+ vs) :
    Cause vs e := by
  cases h with
  | word hw hfault => exact .word (hsub.subset hw) hfault
  | table before hws hopening hfields hafter hshape hragged =>
    obtain ⟨front, rfl⟩ := hsub
    refine .table (front ++ before) ?_ hopening hfields hafter hshape hragged
    rw [hws, ← List.append_assoc, ← List.append_assoc]

/-! ### Checks of words -/

/-- A check that fails only because of one of some words, and on its line. -/
def Accuses (ws : List Word) (x : Except Halt α) : Prop :=
  Check.FailsBy (fun halt => ∃ w ∈ ws, ∃ fault, halt = .atLine w.line fault ∧ w.Faulty fault) x

namespace Text.Word

variable {w : Word} {ws : List Word}

theorem accuses_refuse {fault : Fault} (hw : w ∈ ws) (hfault : w.Faulty fault) :
    Accuses ws (w.refuse fault : Except Halt α) :=
  Check.failsBy_error ⟨w, hw, fault, rfl, hfault⟩

theorem integer_eq_or (w : Word) : (∃ n, w.integer = .ok n) ∨
    ¬ Expected.integer.Fits w.text ∧ w.integer = w.refuse (.notInteger w.text) := by
  by_cases hfits : Expected.integer.Fits w.text
  · obtain ⟨n, hn⟩ := hfits
    exact .inl ⟨n, integer_eq_ok_iff.mpr hn⟩
  · refine .inr ⟨hfits, ?_⟩
    cases hread : integer? w.chars with
    | none => rw [integer, hread]
    | some n => exact absurd ⟨n, integer_eq_ok_iff.mp (by rw [integer, hread])⟩ hfits

theorem accuses_integer (hw : w ∈ ws) : Accuses ws w.integer := by
  rcases w.integer_eq_or with ⟨n, hn⟩ | ⟨hfits, hrefuse⟩
  · rw [hn]
    exact Check.failsBy_ok n
  · rw [hrefuse]
    exact accuses_refuse hw (.notInteger hfits)

/-- An integer right behind a number sign is read without the sign, but it stands on the line of
the whole word. -/
theorem accuses_number {digits : String} (hw : w ∈ ws) (htext : w.text = "#" ++ digits) :
    Accuses ws (Word.integer ⟨digits, w.line⟩) := by
  rcases integer_eq_or ⟨digits, w.line⟩ with ⟨n, hn⟩ | ⟨hfits, hrefuse⟩
  · rw [hn]
    exact Check.failsBy_ok n
  · rw [hrefuse]
    exact accuses_refuse (w := w) hw (.notNumber htext hfits)

theorem accuses_decimal (hw : w ∈ ws) : Accuses ws w.decimal := by
  unfold decimal
  split
  · exact Check.failsBy_ok _
  · next hnone =>
    refine accuses_refuse hw (.notDecimal ?_)
    rintro ⟨q, hq⟩
    rw [← decimal_eq_ok_iff, decimal, hnone] at hq
    cases hq

theorem accuses_flag (hw : w ∈ ws) : Accuses ws w.flag := by
  unfold flag
  split
  · exact Check.failsBy_ok true
  next hT =>
  split
  · exact Check.failsBy_ok false
  next hF =>
  refine accuses_refuse hw (.notFlag ?_)
  rintro ⟨b, ⟨h, -⟩ | ⟨h, -⟩⟩
  · exact hT h
  · exact hF h

theorem accuses_signatures (hw : w ∈ ws) (hsignatures : w.isSignatures = true) :
    Accuses ws w.signatures := by
  unfold signatures
  split
  · exact Check.failsBy_ok _
  · next c hread =>
    cases SignatureText.blames_of_readAll hread with
    | unknownSpace hmem hc =>
      exact accuses_refuse hw
        (.unknownSpace hsignatures hmem (Space.ofLetter?_eq_none_iff.mp hc))
  · next hread =>
    refine accuses_refuse hw (.malformedSignatures hsignatures ?_)
    rintro ⟨ss, -, hss⟩
    rw [← signatures_eq_ok_iff, signatures, hread] at hss
    cases hss

end Text.Word

/-! ### Readers -/

namespace Reader

/-- What reading some words may come to, if the words in `seen` have been taken before. -/
inductive Outcome (seen ws : List Word) : Except Halt (α × List Word) → Prop
  /-- A value is found and words at the end are left. -/
  | found (a : α) {rest : List Word} (h : rest <:+ ws) : Outcome seen ws (.ok (a, rest))
  /-- There are too few words. -/
  | atEnd (expected : Expected) :
    Outcome seen ws (.error (.atLast (.endOfInput expected)))
  /-- A word that has been taken before is wrong. -/
  | behind {w : Word} {fault : Fault} (hw : w ∈ seen) (hfault : w.Faulty fault) :
    Outcome seen ws (.error (.atLine w.line fault))
  /-- Something is wrong with the words ahead. -/
  | ahead {line : Nat} {fault : Fault} (h : Cause ws ⟨line, fault⟩) :
    Outcome seen ws (.error (.atLine line fault))

/-- A reader that only blames what is wrong, with the words in `seen` or with those ahead. -/
def Blames (seen : List Word) (p : Reader α) : Prop := ∀ ws, Outcome seen ws (p ws)

variable {seen ws vs : List Word} {p : Reader α} {x : Except Halt (α × List Word)}

theorem Outcome.of_suffix (h : Outcome seen ws x) (hsub : ws <:+ vs) : Outcome seen vs x := by
  cases h with
  | found a hrest => exact .found a (hrest.trans hsub)
  | atEnd expected => exact .atEnd expected
  | behind hw hfault => exact .behind hw hfault
  | ahead hcause => exact .ahead (hcause.of_suffix hsub)

/-- Words that have been taken were ahead before. -/
theorem Outcome.untake (us : List Word) (h : Outcome (us ++ seen) ws x) :
    Outcome seen (us ++ ws) x := by
  cases h with
  | found a hrest => exact .found a (hrest.trans (List.suffix_append us ws))
  | atEnd expected => exact .atEnd expected
  | behind hw hfault =>
    rcases List.mem_append.mp hw with hw | hw
    · exact .ahead (.word (List.mem_append_left ws hw) hfault)
    · exact .behind hw hfault
  | ahead hcause => exact .ahead (hcause.of_suffix (List.suffix_append us ws))

theorem outcome_of_accuses (ws : List Word) {y : Except Halt α} (h : Accuses seen y) :
    Outcome seen ws (y.map (·, ws)) := by
  cases y with
  | ok a => exact .found a (List.suffix_refl ws)
  | error halt =>
    obtain ⟨w, hw, fault, rfl, hfault⟩ := h halt rfl
    exact .behind hw hfault

theorem blames_pure (a : α) : Blames seen (pure a) := by
  intro ws
  exact .found a (List.suffix_refl ws)

theorem Blames.bind {f : α → Reader β} (hp : Blames seen p) (hf : ∀ a, Blames seen (f a)) :
    Blames seen (p >>= f) := by
  intro ws
  have houtcome := hp ws
  change Outcome seen ws (p ws >>= fun x => f x.1 x.2)
  generalize p ws = x at houtcome
  cases houtcome with
  | found a hrest => exact (hf a _).of_suffix hrest
  | atEnd expected => exact .atEnd expected
  | behind hw hfault => exact .behind hw hfault
  | ahead hcause => exact .ahead hcause

theorem blames_lift {y : Except Halt α} (h : Accuses seen y) :
    Blames seen (liftM y : Reader α) := by
  intro ws
  have hlift : (liftM y : Reader α) ws = y.map (·, ws) := by cases y <;> rfl
  rw [hlift]
  exact outcome_of_accuses ws h

theorem blames_each {f : κ → Except Halt α} {xs : List κ} (hf : ∀ x ∈ xs, Accuses seen (f x)) :
    Blames seen (each f xs) := fun ws => outcome_of_accuses ws (Check.failsBy_mapM hf)

/-- The next word may be blamed once it has been taken. -/
theorem blames_next (expected : Expected) {f : Word → Reader β}
    (hf : ∀ w, Blames (w :: seen) (f w)) : Blames seen (next expected >>= f) := by
  intro ws
  cases ws with
  | nil => exact .atEnd expected
  | cons w ws => exact (hf w ws).untake [w]

theorem blames_takeWhile {test : Word → Bool} {f : List Word → Reader β}
    (hf : ∀ us, (∀ w ∈ us, test w = true) → Blames (us ++ seen) (f us)) :
    Blames seen (takeWhile test >>= f) := by
  intro ws
  have houtcome := (hf (ws.takeWhile test) (fun _ => List.mem_takeWhile_imp)
    (ws.dropWhile test)).untake (ws.takeWhile test)
  rwa [List.takeWhile_append_dropWhile] at houtcome

/-! ### The grammar -/

theorem blames_unexpected {w : Word} {expected : Expected} (h : ¬ expected.Fits w.text) :
    Blames (w :: seen) (liftM (w.unexpected expected : Except Halt α) : Reader α) :=
  blames_lift (Word.accuses_refuse List.mem_cons_self (.unexpected h))

theorem blames_tag (t : Tag) : Blames seen (tag t) := by
  refine blames_next (.tag t) fun w => ?_
  split
  · exact blames_pure ()
  · next h => exact blames_unexpected h

theorem blames_integer : Blames seen integer := by
  refine blames_next .integer fun w => ?_
  split
  · next htag =>
    refine blames_unexpected ?_
    rintro ⟨n, hn⟩
    exact hn.head?_ne (.inl rfl) (Word.isTag_iff.mp htag)
  · exact blames_lift (Word.accuses_integer List.mem_cons_self)

theorem blames_decimal : Blames seen decimal :=
  blames_next .decimal fun _ => blames_lift (Word.accuses_decimal List.mem_cons_self)

theorem blames_signatures : Blames seen signatures := by
  refine blames_next .signatures fun first => ?_
  split
  · next hfirst =>
    refine blames_takeWhile fun more hmore => ?_
    refine (blames_each fun w hw => ?_).bind fun _ => blames_pure _
    have hall : ∀ w ∈ first :: more, w.isSignatures = true :=
      List.forall_mem_cons.mpr ⟨hfirst, hmore⟩
    exact Word.accuses_signatures (by grind) (hall w hw)
  · next hfirst =>
    refine blames_unexpected ?_
    rintro ⟨ss, hss⟩
    exact hfirst (Word.isSignatures_iff.mpr hss.head?_eq)

theorem blames_operator : Blames seen operator := by
  refine blames_next .operatorName fun name => ?_
  split
  · next hname =>
    refine blames_unexpected ?_
    rintro ⟨htag, hsignatures⟩
    rw [Bool.or_eq_true, Word.isTag_iff, Word.isSignatures_iff] at hname
    exact hname.elim htag hsignatures
  · refine blames_next .flag fun _ => ?_
    refine (blames_lift (Word.accuses_flag List.mem_cons_self)).bind fun _ => ?_
    exact blames_signatures.bind fun _ => blames_pure _

theorem blames_arc : Blames seen arc :=
  blames_integer.bind fun _ => blames_integer.bind fun _ => blames_signatures.bind fun _ =>
    blames_pure _

theorem blames_number : Blames seen number := by
  refine blames_next .numberSign fun w => ?_
  split
  · exact blames_integer
  · next digits _ hchars =>
    refine blames_lift (Word.accuses_number List.mem_cons_self ?_)
    exact String.toList_inj.mp (hchars.trans (by simp))
  · next hno =>
    refine blames_unexpected ?_
    rintro ⟨digits, hw⟩
    exact hno digits.toList (by rw [Word.chars, hw, String.toList_append]; rfl)

/-! ### Tables -/

/-- The fields of the rows are among the fields of the table. -/
theorem getElem_mem_of_rows? {width : Nat} {us : List Word} {rows : List (Vector Word width)}
    (h : Columns.rows? width us = some rows) {row : Vector Word width} (hrow : row ∈ rows)
    (i : Nat) (hi : i < width) : row[i] ∈ us := by
  rw [← (Columns.fields_of_rows? h).1, Columns.fields, List.mem_flatMap]
  exact ⟨⟨i, hi⟩, List.mem_finRange _, List.mem_map.mpr ⟨row, hrow, rfl⟩⟩

theorem accuses_vertexRow {us : List Word} {row : Vector Word 6}
    (hrow : ∀ i (hi : i < 6), row[i] ∈ us) : Accuses us (vertexRow row) :=
  have hinteger (i : Nat) (hi : i < 6) : Accuses us row[i].integer :=
    Word.accuses_integer (hrow i hi)
  (hinteger 0 _).bind fun _ _ => (hinteger 1 _).bind fun _ _ => (hinteger 2 _).bind fun _ _ =>
  (Word.accuses_flag (hrow 3 (by decide))).bind fun _ _ =>
  (hinteger 4 _).bind fun _ _ => (hinteger 5 _).bind fun _ _ => Check.failsBy_ok _

theorem accuses_resultRow {us : List Word} {row : Vector Word 5}
    (hrow : ∀ i (hi : i < 5), row[i] ∈ us) : Accuses us (resultRow row) :=
  have hinteger (i : Nat) (hi : i < 5) : Accuses us row[i].integer :=
    Word.accuses_integer (hrow i hi)
  (hinteger 0 _).bind fun _ _ => (hinteger 1 _).bind fun _ _ => (hinteger 2 _).bind fun _ _ =>
  (hinteger 3 _).bind fun _ _ => (hinteger 4 _).bind fun _ _ => Check.failsBy_ok _

/-- The fields of a section are all words from its opening up to the next section or the end. -/
theorem blames_section (t : Tag) {f : List Word → Reader β}
    (hf : ∀ opening us after, opening.text = t.text → (∀ w ∈ us, w.isTag = false) →
      (∀ w ∈ after.head?, w.isTag = true) →
      Outcome seen (opening :: us ++ after) (f us after)) :
    Blames seen (tag t >>= fun _ => fields >>= f) := by
  intro ws
  cases ws with
  | nil => exact .atEnd (.tag t)
  | cons opening ws =>
    change Outcome seen (opening :: ws)
      (((if opening.text = t.text then pure () else opening.unexpected (.tag t) : Reader Unit) >>=
        fun _ => fields >>= f) ws)
    by_cases hopening : opening.text = t.text
    · rw [if_pos hopening]
      obtain ⟨hws, hfields, hafter⟩ := takeWhile_eq_ok_iff.mp (rfl : fields ws = .ok (_, _))
      have houtcome := hf opening _ _ hopening (by simpa using hfields) (by simpa using hafter)
      rwa [List.cons_append, ← hws] at houtcome
    · rw [if_neg hopening]
      exact .ahead (.word List.mem_cons_self (.unexpected hopening))

/-- The fields of a ragged table are not blamed one by one. -/
theorem blames_table {t : Tag} {width : Nat} {row : Vector Word width → Except Halt α}
    (hshape : TableShape t width)
    (hrow : ∀ us fs, (∀ i (hi : i < width), fs[i] ∈ us) → Accuses us (row fs)) :
    Blames seen (table t width row) := by
  refine blames_section t fun opening us after hopening hfields hafter => ?_
  cases hrows : Columns.rows? width us with
  | some rows =>
    have haccuses : Accuses (us ++ seen) (rows.mapM row) := Check.failsBy_mapM fun fs hfs =>
      hrow _ fs fun i hi => List.mem_append_left seen (getElem_mem_of_rows? hrows hfs i hi)
    have houtcome := (outcome_of_accuses after haccuses).untake us
    exact houtcome.of_suffix (List.suffix_cons opening (us ++ after))
  | none =>
    have hragged : ¬ width ∣ us.length := Columns.rows?_eq_none_iff.mp hrows
    cases us with
    | nil => exact absurd (Nat.dvd_zero width) hragged
    | cons first more =>
      exact .ahead (.table [] rfl hopening hfields hafter hshape hragged)

/-! ### Items -/

theorem blames_itemsUpTo {item : Reader α} (hitem : Blames seen item) (n : Nat) :
    Blames seen (itemsUpTo item n) := by
  induction n with
  | zero => exact blames_pure []
  | succ n ih =>
    intro ws
    cases ws with
    | nil => exact .found [] (List.suffix_refl [])
    | cons w ws =>
      rw [itemsUpTo]
      split
      · exact .found [] (List.suffix_refl _)
      · exact (hitem.bind fun a => ih.bind fun as => blames_pure (a :: as)) (w :: ws)

theorem blames_items {item : Reader α} (hitem : Blames seen item) : Blames seen (items item) :=
  fun ws => blames_itemsUpTo hitem ws.length ws

/-! ### Records -/

theorem blames_record : Blames seen record :=
  (blames_tag .contraction).bind fun _ => blames_number.bind fun _ =>
  (blames_tag .result).bind fun _ => blames_operator.bind fun _ =>
  (blames_tag .factor).bind fun _ => blames_decimal.bind fun _ => blames_decimal.bind fun _ =>
  blames_decimal.bind fun _ =>
  (blames_tag .vertexCounts).bind fun _ => blames_integer.bind fun _ => blames_integer.bind fun _ =>
  (blames_tag .superVertices).bind fun _ => blames_takeWhile fun _ _ =>
  (blames_each fun _ hw => Word.accuses_integer (List.mem_append_left seen hw)).bind fun _ =>
  (blames_tag .arcCounts).bind fun _ => blames_integer.bind fun _ => blames_integer.bind fun _ =>
  (blames_tag .vertices).bind fun _ => (blames_items blames_operator).bind fun _ =>
  (blames_tag .arcs).bind fun _ => (blames_items blames_arc).bind fun _ =>
  (blames_tag .externalArcs).bind fun _ => (blames_items blames_arc).bind fun _ =>
  (blames_table .vertices fun _ _ => accuses_vertexRow).bind fun _ =>
  (blames_table .result fun _ _ => accuses_resultRow).bind fun _ => blames_pure _

end Reader

/-! ### Exports -/

/-- What puts an end to a sequence of records is that there are too few words, or something is
wrong with the words. -/
theorem Reading.outcome_of_scan {n : Nat} {ws : List Word} {halt : Halt}
    (h : (scan n ws).2 = some halt) : Reader.Outcome (α := Record) [] ws (.error halt) := by
  induction n generalizing ws with
  | zero =>
    obtain rfl : Halt.atLast _ = halt := by simpa [scan] using h
    exact .atEnd .recordOrFinish
  | succ n ih =>
    cases ws with
    | nil =>
      obtain rfl : Halt.atLast _ = halt := by simpa [scan] using h
      exact .atEnd .recordOrFinish
    | cons w ws =>
      rw [scan.eq_def] at h
      dsimp only at h
      split at h
      · -- the final word: it is the one behind it that is wrong
        cases ws with
        | nil => simp at h
        | cons extra ws =>
          obtain rfl : Halt.atLine extra.line _ = halt := by simpa using h
          exact .ahead (.word (w := extra) (by simp) (.unexpected id))
      next hfinish =>
      split at h
      · have houtcome : Reader.Outcome [] (w :: ws) (Reader.record (w :: ws)) :=
          Reader.blames_record (w :: ws)
        cases hrecord : Reader.record (w :: ws) with
        | ok found =>
          rw [hrecord] at h houtcome
          cases houtcome with
          | found r hrest => exact (ih h).of_suffix hrest
        | error stop =>
          rw [hrecord] at h houtcome
          obtain rfl : stop = halt := Option.some.inj h
          exact houtcome
      · next hcontraction =>
        obtain rfl : Halt.atLine w.line _ = halt := by simpa using h
        refine .ahead (.word List.mem_cons_self (.unexpected ?_))
        rintro (h | h)
        · exact hcontraction h
        · exact hfinish h

namespace Record

/-- **Every error of reading has its cause where it says.**  A text that ends too early is blamed
on the line of its last word, or on the first if there is no word; everything else stands on the
line that is named. -/
theorem cause_of_readAll {text : String} {e : ReadError} (h : readAll text = .error e) :
    (∃ expected, e = ⟨lastLine (words text), .endOfInput expected⟩) ∨ Cause (words text) e := by
  rw [readAll, Reading.toExcept, Reading.ofText, Reading.ofWords] at h
  cases hhalt : (Reading.scan (words text).length (words text)).2 with
  | none => simp [hhalt] at h
  | some halt =>
    obtain rfl : halt.toError (lastLine (words text)) = e := by simpa [hhalt] using h
    cases Reading.outcome_of_scan hhalt with
    | atEnd expected => exact .inl ⟨expected, rfl⟩
    | behind hw hfault => exact absurd hw List.not_mem_nil
    | ahead hcause => exact .inr hcause

/-- A table that the end of the text cuts off in its first row, on the line below its opening. -/
theorem cause_of_readAll_cut_off : ∃ text,
    readAll text = .error ⟨3, .ragged .vertexTable 6 4⟩ ∧
      Cause (words text) ⟨3, .ragged .vertexTable 6 4⟩ := by
  have hread : readAll "[CONTR] #1 [RESULT] R F (,) [FACTOR] 1 1 1 [#VERTICES] 0 0 [SVERTEX]
      [#ARCS] 0 0 [VERTICES] [ARCS] [XARCS] [CONTR_STRING]
      1 1 1 T" =
      .error ⟨3, .ragged .vertexTable 6 4⟩ := by decide +kernel
  refine ⟨_, hread, (cause_of_readAll hread).resolve_left ?_⟩
  rintro ⟨expected, h⟩
  exact absurd (congrArg ReadError.fault h) (by simp)

end Record
end TensorContraction
