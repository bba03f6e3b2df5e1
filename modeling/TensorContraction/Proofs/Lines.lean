import TensorContraction.Proofs.Layout

/-!
# Where words stand

A text can be cut at its line feeds and each line into words, or cut into words at once with a
count of the line feeds passed.  Both ways find the same words on the same lines, and the words
are the maximal runs of letters, each with the line feeds in front of it.  A carriage return is a
blank like any other: it keeps words apart and starts no line.

## Main definitions

* `MaximalRun` — a stretch of letters that cannot be extended.
* `wordAt` — the word that a stretch of a text holds.
* `lines`, `wordsByLine` — the lines of a text, and its words line by line.

## Main results

* `MaximalRun.eq_of_meet` — maximal runs that meet are the same.
* `exists_spans_scan` — scanning finds each maximal run once, in order.
* `scan_eq_wordsOfLines` — scanning finds the words of the lines.
* `words_outcome` — the words of any text.
-/

namespace TensorContraction.Text

/-! ### Maximal runs -/

/-- A stretch of letters, that is, of characters that are not blank, with no letter in front of
it and none behind it. -/
structure MaximalRun (cs : List Char) (start stop : Nat) : Prop where
  /-- The stretch is not empty. -/
  start_lt : start < stop
  /-- It has letters only. -/
  letter : ∀ i, start ≤ i → i < stop → ∃ c ∈ cs[i]?, isBlank c = false
  /-- A character in front of it is blank. -/
  before : ∀ i, i + 1 = start → ∀ c ∈ cs[i]?, isBlank c = true
  /-- A character behind it is blank. -/
  after : ∀ c ∈ cs[stop]?, isBlank c = true

/-- The word that a stretch of a text holds, on the line that the line feeds in front of it
count. -/
def wordAt (cs : List Char) (span : Nat × Nat) : Word :=
  ⟨String.ofList ((cs.take span.2).drop span.1), (cs.take span.1).count '\n' + 1⟩

namespace MaximalRun

variable {cs : List Char} {start stop start' stop' i : Nat}

theorem not_blank_of_letter (hletter : ∃ c ∈ cs[i]?, isBlank c = false)
    (hblank : ∀ c ∈ cs[i]?, isBlank c = true) : False := by
  obtain ⟨c, hc, hfalse⟩ := hletter
  simp [hblank c hc] at hfalse

/-- **Maximal runs that meet are the same.** -/
theorem eq_of_meet (h : MaximalRun cs start stop) (h' : MaximalRun cs start' stop')
    (hle : start ≤ start') (hlt : start' < stop) : start = start' ∧ stop = stop' := by
  have hstart : start = start' := by
    by_contra hne
    exact not_blank_of_letter (h.letter (start' - 1) (by omega) (by omega))
      (h'.before (start' - 1) (by omega))
  have hlt' := h'.start_lt
  rcases Nat.lt_trichotomy stop stop' with hstop | hstop | hstop
  · exact (not_blank_of_letter (h'.letter stop (by omega) hstop) h.after).elim
  · exact ⟨hstart, hstop⟩
  · exact (not_blank_of_letter (h.letter stop' (by omega) hstop) h'.after).elim

theorem stop_le (h : MaximalRun cs start stop) : stop ≤ cs.length := by
  have hlt := h.start_lt
  obtain ⟨c, hc, -⟩ := h.letter (stop - 1) (by omega) (by omega)
  have := (List.getElem?_eq_some_iff.mp hc).1
  omega

end MaximalRun

section Scan

variable {c : Char} {front letters rest : List Char}

/-- Letters between blanks, or between a blank and an end, are a maximal run. -/
theorem maximalRun_append (hfront : ∀ c ∈ front.getLast?, isBlank c = true)
    (hletters : ∀ c ∈ letters, isBlank c = false) (hrest : ∀ c ∈ rest.head?, isBlank c = true)
    (hne : letters ≠ []) :
    MaximalRun (front ++ (letters ++ rest)) front.length (front.length + letters.length) where
  start_lt := by
    have := List.length_pos_iff.mpr hne
    omega
  letter i hi hi' := by
    have hlt : i - front.length < letters.length := by omega
    refine ⟨letters[i - front.length], ?_, hletters _ (List.getElem_mem hlt)⟩
    rw [List.getElem?_append_right hi, List.getElem?_append_left hlt]
    exact List.getElem?_eq_getElem hlt
  before i hi c hc := by
    rw [List.getElem?_append_left (by omega)] at hc
    refine hfront c ?_
    rw [List.getLast?_eq_getElem?, ← hi, Nat.add_sub_cancel]
    exact hc
  after c hc := by
    rw [← List.append_assoc, ← List.length_append, List.getElem?_append_right (Nat.le_refl _),
      Nat.sub_self] at hc
    exact hrest c (by rwa [List.head?_eq_getElem?])

/-- No maximal run starts where a blank stands or the text ends. -/
theorem not_maximalRun_append (front letters : List Char)
    (hrest : ∀ c ∈ rest.head?, isBlank c = true) (stop : Nat) :
    ¬ MaximalRun (front ++ (letters ++ rest)) (front.length + letters.length) stop := by
  intro h
  refine MaximalRun.not_blank_of_letter (h.letter _ (Nat.le_refl _) h.start_lt) ?_
  rw [← List.append_assoc, ← List.length_append, List.getElem?_append_right (Nat.le_refl _),
    Nat.sub_self, ← List.head?_eq_getElem?]
  exact hrest

theorem wordAt_append (front letters rest : List Char) :
    wordAt (front ++ (letters ++ rest)) (front.length, front.length + letters.length) =
      ⟨String.ofList letters, front.count '\n' + 1⟩ := by
  rw [wordAt, List.take_left, ← List.append_assoc, ← List.length_append, List.take_left,
    List.drop_left]

/-- A word that has been begun ends in front of a blank. -/
theorem exists_spans_close (rest : List Char)
    (hfront : ∀ c ∈ front.getLast?, isBlank c = true)
    (hletters : ∀ c ∈ letters, isBlank c = false) (hrest : ∀ c ∈ rest.head?, isBlank c = true) :
    ∃ spans : List (Nat × Nat),
      (∀ a b, (a, b) ∈ spans ↔ (front.length ≤ a ∧ a ≤ front.length + letters.length) ∧
        MaximalRun (front ++ (letters.reverse ++ rest)) a b) ∧
      spans.Pairwise (fun s t => s.2 < t.1) ∧
      (∀ s ∈ spans, s.2 ≤ front.length + letters.length) ∧
      Word.close letters (front.count '\n' + 1) =
        spans.map (wordAt (front ++ (letters.reverse ++ rest))) := by
  have hreverse : ∀ c ∈ letters.reverse, isBlank c = false := fun c hc =>
    hletters c (List.mem_reverse.mp hc)
  have hlength : letters.reverse.length = letters.length := List.length_reverse
  have hstop := not_maximalRun_append front letters.reverse hrest
  rw [← hlength]
  by_cases hne : letters = []
  · subst hne
    refine ⟨[], fun a b => ?_, .nil, by simp, rfl⟩
    simp only [List.not_mem_nil, false_iff, not_and]
    rintro ⟨ha, ha'⟩ h
    obtain rfl : a = front.length := Nat.le_antisymm ha' ha
    exact hstop b h
  · have hrun := maximalRun_append hfront hreverse hrest (by simpa using hne)
    refine ⟨[(front.length, front.length + letters.reverse.length)], fun a b => ?_,
      List.pairwise_singleton _ _, by simp, ?_⟩
    · rw [List.mem_singleton, Prod.mk.injEq]
      constructor
      · rintro ⟨rfl, rfl⟩
        exact ⟨⟨Nat.le_refl _, Nat.le_add_right _ _⟩, hrun⟩
      · rintro ⟨⟨ha, ha'⟩, h⟩
        have hlt : a < front.length + letters.reverse.length := by
          refine Nat.lt_of_le_of_ne ha' ?_
          rintro rfl
          exact hstop b h
        obtain ⟨rfl, rfl⟩ := hrun.eq_of_meet h ha hlt
        exact ⟨rfl, rfl⟩
    · rw [List.map_singleton, wordAt_append, Word.close, if_neg (by simpa using hne)]

/-- Letters start no line, and of the blanks only a line feed does. -/
theorem line_behind (hletters : ∀ d ∈ letters, isBlank d = false) :
    (front ++ (letters.reverse ++ [c])).count '\n' + 1 =
      if c = '\n' then front.count '\n' + 1 + 1 else front.count '\n' + 1 := by
  have hzero : letters.count '\n' = 0 := by
    rw [List.count_eq_zero]
    intro hfeed
    exact absurd (hletters _ hfeed) (by decide)
  rw [List.count_append, List.count_append, List.count_reverse, hzero, List.count_singleton]
  split <;> simp_all

/-- **Scanning finds each maximal run once, in order**, from a word on that has been begun. -/
theorem exists_spans_scan (front letters rest : List Char)
    (hfront : ∀ c ∈ front.getLast?, isBlank c = true)
    (hletters : ∀ c ∈ letters, isBlank c = false) :
    ∃ spans : List (Nat × Nat),
      (∀ a b, (a, b) ∈ spans ↔ front.length ≤ a ∧
        MaximalRun (front ++ (letters.reverse ++ rest)) a b) ∧
      spans.Pairwise (fun s t => s.2 < t.1) ∧
      Word.scan (front.count '\n' + 1) letters rest =
        spans.map (wordAt (front ++ (letters.reverse ++ rest))) := by
  induction rest generalizing front letters with
  | nil =>
    obtain ⟨spans, hmem, hpairwise, -, hclose⟩ :=
      exists_spans_close [] hfront hletters (by simp)
    refine ⟨spans, fun a b => ?_, hpairwise, hclose⟩
    rw [hmem, and_assoc]
    refine and_congr_right fun _ => and_iff_right_of_imp fun h => ?_
    have hlt := h.start_lt
    have hle := h.stop_le
    simp only [List.length_append, List.length_reverse, List.length_nil] at hle
    omega
  | cons c rest ih =>
    rw [Word.scan]
    split
    · next hc =>
      -- the word ends here, and the rest is scanned from behind the blank
      obtain ⟨spans, hmem, hpairwise, hle, hclose⟩ :=
        exists_spans_close (c :: rest) hfront hletters (by simpa using hc)
      obtain ⟨others, hmem', hpairwise', hscan⟩ :=
        ih (front ++ (letters.reverse ++ [c])) [] (by simpa [List.getLast?_append] using hc) (by simp)
      have htext : front ++ (letters.reverse ++ [c]) ++ (([] : List Char).reverse ++ rest) =
          front ++ (letters.reverse ++ c :: rest) := by simp
      rw [htext] at hmem' hscan
      rw [line_behind hletters] at hscan
      refine ⟨spans ++ others, fun a b => ?_, ?_, ?_⟩
      · rw [List.mem_append, hmem, hmem', ← or_and_right]
        refine and_congr_left fun _ => ?_
        simp only [List.length_append, List.length_reverse, List.length_singleton]
        omega
      · refine List.pairwise_append.mpr ⟨hpairwise, hpairwise', fun s hs t ht => ?_⟩
        have hs := hle s hs
        have ht := ((hmem' t.1 t.2).mp ht).1
        simp only [List.length_append, List.length_reverse, List.length_singleton] at ht
        omega
      · rw [hclose, hscan, List.map_append]
    · next hc =>
      -- the word goes on
      obtain ⟨spans, hmem, hpairwise, hscan⟩ :=
        ih front (c :: letters) hfront
          (List.forall_mem_cons.mpr ⟨by simpa using hc, hletters⟩)
      have htext : (c :: letters).reverse ++ rest = letters.reverse ++ c :: rest := by simp
      rw [htext] at hmem hscan
      exact ⟨spans, hmem, hpairwise, hscan⟩

end Scan

/-! ### Lines -/

/-- The lines of a text.  A line ends with a line feed, and a carriage return in front of that is
no part of the line; what stands behind the last line feed is a line if there is anything. -/
def lines : List Char → List (List Char)
  | [] => []
  | '\n' :: cs => [] :: lines cs
  | '\r' :: '\n' :: cs => [] :: lines cs
  | c :: cs =>
    match lines cs with
    | [] => [[c]]
    | line :: others => (c :: line) :: others

/-- The words of lines, of which the first has a number. -/
def wordsOfLines (number : Nat) (ls : List (List Char)) : List Word :=
  (ls.zipIdx number).flatMap fun (line, n) => (runs (String.ofList line)).map (⟨·, n⟩)

/-- The words of a text, line by line. -/
def wordsByLine (text : String) : List Word := wordsOfLines 1 (lines text.toList)

section Lines

variable {c : Char} {run cs line : List Char} {ls : List (List Char)} {number : Nat}

@[simp] theorem wordsOfLines_nil : wordsOfLines number [] = [] := rfl

theorem wordsOfLines_cons :
    wordsOfLines number (line :: ls) =
      (runs (String.ofList line)).map (⟨·, number⟩) ++ wordsOfLines (number + 1) ls := by
  rw [wordsOfLines, List.zipIdx_cons, List.flatMap_cons]
  rfl

/-- A line starts with any character that does not end it. -/
theorem lines_cons (hfeed : c ≠ '\n') (hreturn : c = '\r' → cs.head? ≠ some '\n') :
    lines (c :: cs) =
      match lines cs with
      | [] => [[c]]
      | line :: others => (c :: line) :: others := by
  rw [lines.eq_def]
  split
  · next heq => simp at heq
  · next heq => simp_all
  · next heq => simp_all
  · next heq =>
    obtain ⟨rfl, rfl⟩ := List.cons.inj heq
    rfl

theorem lines_ne_nil (c : Char) (cs : List Char) : lines (c :: cs) ≠ [] := by
  rw [lines.eq_def]
  split
  · next heq => simp at heq
  · simp
  · simp
  · split <;> simp

/-- Letters are part of the line that they stand in. -/
theorem lines_append_cons (hrun : ∀ d ∈ run, isBlank d = false) :
    lines (run ++ c :: cs) = (lines (c :: cs)).modifyHead (run ++ ·) := by
  induction run with
  | nil =>
    rw [List.nil_append]
    cases lines (c :: cs) <;> rfl
  | cons d run ih =>
    obtain ⟨hd, hrun⟩ := List.forall_mem_cons.mp hrun
    have hfeed : d ≠ '\n' := by
      rintro rfl
      exact absurd hd (by decide)
    have hreturn : d ≠ '\r' := by
      rintro rfl
      exact absurd hd (by decide)
    rw [List.cons_append, lines_cons hfeed (absurd · hreturn), ih hrun]
    cases h : lines (c :: cs) with
    | nil => exact absurd h (lines_ne_nil c cs)
    | cons line others => rfl

theorem runs_ofList_append_cons (hrun : ∀ d ∈ run, isBlank d = false) (hc : isBlank c = true)
    (number : Nat) :
    (runs (String.ofList (run ++ c :: line))).map (⟨·, number⟩) =
      Word.close run.reverse number ++
        (runs (String.ofList line)).map (⟨·, number⟩ : String → Word) := by
  rw [runs, runs, String.toList_ofList, String.toList_ofList,
    List.splitOnP_append_cons_of_forall_mem hrun _ hc]
  cases run with
  | nil => simp [Word.close]
  | cons d run => simp [Word.close]

theorem runs_ofList (hrun : ∀ d ∈ run, isBlank d = false) (number : Nat) :
    (runs (String.ofList run)).map (⟨·, number⟩) = Word.close run.reverse number := by
  rw [runs, String.toList_ofList, List.splitOnP_eq_singleton hrun]
  cases run with
  | nil => simp [Word.close]
  | cons d run => simp [Word.close]

/-- A blank that is no line feed ends the word and not the line. -/
theorem wordsOfLines_blank (hrun : ∀ d ∈ run, isBlank d = false) (hc : isBlank c = true)
    (hfeed : c ≠ '\n') :
    wordsOfLines number ((lines (c :: cs)).modifyHead (run ++ ·)) =
      Word.close run.reverse number ++ wordsOfLines number (lines cs) := by
  by_cases hreturn : c = '\r' ∧ cs.head? = some '\n'
  · -- the line feed behind a carriage return ends an empty line as well as this one
    obtain ⟨rfl, hhead⟩ := hreturn
    obtain ⟨cs, rfl⟩ := List.head?_eq_some_iff.mp hhead
    rw [lines, lines, List.modifyHead_cons, List.append_nil, wordsOfLines_cons,
      wordsOfLines_cons, runs_ofList hrun, runs_ofList (by simp)]
    rfl
  · rw [lines_cons hfeed fun hr hh => hreturn ⟨hr, hh⟩]
    cases lines cs with
    | nil =>
      rw [List.modifyHead_cons, wordsOfLines_cons, runs_ofList_append_cons hrun hc,
        runs_ofList (by simp), List.append_assoc]
      rfl
    | cons line others =>
      rw [List.modifyHead_cons, wordsOfLines_cons, wordsOfLines_cons,
        runs_ofList_append_cons hrun hc, List.append_assoc]

/-- Letters alone are one line, if there are any. -/
theorem wordsOfLines_letters (hrun : ∀ d ∈ run, isBlank d = false) :
    wordsOfLines number (lines run) = Word.close run.reverse number := by
  rcases List.eq_nil_or_concat' run with rfl | ⟨run, c, rfl⟩
  · rfl
  · obtain ⟨hfront, hc⟩ := List.forall_mem_append.mp hrun
    have hfeed : c ≠ '\n' := by
      rintro rfl
      exact absurd (hc _ List.mem_cons_self) (by decide)
    rw [lines_append_cons hfront, lines_cons hfeed (by simp), lines, List.modifyHead_cons,
      wordsOfLines_cons, runs_ofList hrun, wordsOfLines_nil, List.append_nil]

/-- **Scanning finds the words of the lines**, from a word on that has been begun. -/
theorem scan_eq_wordsOfLines {letters : List Char} (hletters : ∀ d ∈ letters, isBlank d = false) :
    Word.scan number letters cs = wordsOfLines number (lines (letters.reverse ++ cs)) := by
  have hreverse : ∀ d ∈ letters.reverse, isBlank d = false := fun d hd =>
    hletters d (List.mem_reverse.mp hd)
  induction cs generalizing number letters with
  | nil =>
    rw [Word.scan, List.append_nil, wordsOfLines_letters hreverse, List.reverse_reverse]
  | cons c cs ih =>
    rw [Word.scan]
    split
    · next hc =>
      rw [ih (by simp) (by simp), lines_append_cons hreverse, List.reverse_nil, List.nil_append]
      split
      · next hfeed =>
        subst hfeed
        rw [lines, List.modifyHead_cons, List.append_nil, wordsOfLines_cons, runs_ofList hreverse,
          List.reverse_reverse]
      · next hfeed => rw [wordsOfLines_blank hreverse hc hfeed, List.reverse_reverse]
    · next hc =>
      have hcons : ∀ d ∈ c :: letters, isBlank d = false :=
        List.forall_mem_cons.mpr ⟨by simpa using hc, hletters⟩
      rw [ih hcons fun d hd => hcons d (List.mem_reverse.mp hd)]
      simp

end Lines

/-- **The words of any text** are those of its lines, in order, and they are its maximal runs of
letters, in order, each on the line that the line feeds in front of it count. -/
theorem words_outcome (text : String) :
    words text = wordsByLine text ∧
      ∃ spans : List (Nat × Nat),
        (∀ start stop, (start, stop) ∈ spans ↔ MaximalRun text.toList start stop) ∧
        spans.Pairwise (fun s t => s.2 < t.1) ∧ words text = spans.map (wordAt text.toList) := by
  refine ⟨scan_eq_wordsOfLines (by simp), ?_⟩
  obtain ⟨spans, hmem, hpairwise, hscan⟩ :=
    exists_spans_scan [] [] text.toList (by simp) (by simp)
  refine ⟨spans, fun start stop => ?_, hpairwise, hscan⟩
  rw [hmem, List.length_nil, and_iff_right (Nat.zero_le _)]
  rfl

-- neither a carriage return nor another mark that separates lines starts one
example : words "a\r\nb\rc\n\u2028d" = [⟨"a", 1⟩, ⟨"b", 2⟩, ⟨"c", 2⟩, ⟨"d", 3⟩] := by
  decide +kernel

end TensorContraction.Text
