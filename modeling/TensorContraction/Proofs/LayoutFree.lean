import TensorContraction.Proofs.Layout
import TensorContraction.Record.Grammar

/-!
# Reading does not see the layout

A word is its text and the line it stands on.  Readers look at the texts only and keep the lines
for what they report.  So on words with the same texts a reader finds the same value and leaves
words with the same texts, or it stops on both because of the same fault.  Reading one thing
after another keeps this, and so it holds of the whole grammar.  The texts of the words are the
runs between blanks: blanks of any kind, line breaks among them, only keep words apart.

## Main definitions

* `Halt.fault` — why reading stops, whatever the line.
* `Reader.Alike` — readers that agree on words with the same texts.

## Main results

* `Reader.Alike.bind`, `Reader.alike_next`, `Reader.alike_takeWhile` — one reader after another.
* `Reader.alike_record` — the grammar of a record.
* `Record.readAll_mapError_fault` — texts with the same words are read alike.
-/

namespace TensorContraction

open Text

variable {α β κ : Type}

/-! ### Faults without lines -/

/-- Why reading stops, whatever the line. -/
def Halt.fault : Halt → Fault
  | atLast fault | atLine _ fault => fault

@[simp] theorem Halt.fault_toError (lastLine : Nat) (halt : Halt) :
    (halt.toError lastLine).fault = halt.fault := by
  cases halt <;> rfl

@[simp] theorem Halt.fault_atFirst (ws : List Word) (fault : Fault) :
    (atFirst ws fault).fault = fault := by
  cases ws <;> rfl

/-- The texts of words, whatever their lines. -/
def texts (ws : List Word) : List String := ws.map (·.text)

theorem eq_nil_of_texts {vs : List Word} (h : texts [] = texts vs) : vs = [] := by
  simpa [texts] using h.symm

theorem exists_cons_of_texts {w : Word} {ws vs : List Word} (h : texts (w :: ws) = texts vs) :
    ∃ v us, vs = v :: us ∧ w.text = v.text ∧ texts ws = texts us := by
  obtain ⟨v, us, rfl, hword, hrest⟩ := List.map_eq_cons_iff.mp h.symm
  exact ⟨v, us, rfl, hword.symm, hrest.symm⟩

theorem length_eq_of_texts {ws vs : List Word} (h : texts ws = texts vs) :
    ws.length = vs.length := by
  simpa [texts] using congrArg List.length h

/-- A value, or what is wrong, whatever the line. -/
def blind (x : Except Halt α) : Except Fault α := x.mapError Halt.fault

theorem blind_bind (x : Except Halt α) (f : α → Except Halt β) :
    blind (x >>= f) = blind x >>= fun a => blind (f a) := by
  cases x <;> rfl

/-- Things that look the same are taken for the same. -/
theorem blind_mapM_congr {look : α → κ} {f : α → Except Halt β}
    (hf : ∀ x y, look x = look y → blind (f x) = blind (f y)) {xs ys : List α}
    (h : xs.map look = ys.map look) : blind (xs.mapM f) = blind (ys.mapM f) := by
  induction xs generalizing ys with
  | nil =>
    obtain rfl : ys = [] := by simpa using h.symm
    rfl
  | cons x xs ih =>
    cases ys with
    | nil => simp at h
    | cons y ys =>
      obtain ⟨hhead, htail⟩ := List.cons.inj h
      simp only [List.mapM_cons, blind_bind, hf x y hhead, ih htail]

/-! ### Words -/

namespace Text.Word

variable {w v : Word}

theorem blind_unexpected (h : w.text = v.text) (expected : Expected) :
    blind (w.unexpected expected : Except Halt α) = blind (v.unexpected expected) := by
  simp only [unexpected, refuse, blind, Except.mapError, Halt.fault, h]

theorem blind_integer (h : w.text = v.text) : blind w.integer = blind v.integer := by
  unfold integer chars
  rw [h]
  cases integer? v.text.toList with
  | some n => rfl
  | none => rfl

theorem blind_decimal (h : w.text = v.text) : blind w.decimal = blind v.decimal := by
  unfold decimal chars
  rw [h]
  cases decimal? v.text.toList with
  | some q => rfl
  | none => rfl

theorem blind_flag (h : w.text = v.text) : blind w.flag = blind v.flag := by
  unfold flag
  rw [h]
  split
  · rfl
  · split <;> rfl

theorem blind_signatures (h : w.text = v.text) : blind w.signatures = blind v.signatures := by
  unfold signatures chars
  rw [h]
  rcases SignatureText.readAll v.text.toList with fault | ss
  · cases fault <;> rfl
  · rfl

theorem isTag_congr (h : w.text = v.text) : w.isTag = v.isTag := by
  rw [isTag, isTag, chars, chars, h]

theorem isSignatures_congr (h : w.text = v.text) : w.isSignatures = v.isSignatures := by
  rw [isSignatures, isSignatures, chars, chars, h]

end Text.Word

/-! ### Readers -/

namespace Reader

/-- What two readers do, looked at without the lines: both find the same value and leave words
with the same texts, or both stop because of the same fault. -/
inductive Agree : Except Halt (α × List Word) → Except Halt (α × List Word) → Prop
  /-- Both find a value. -/
  | found (a : α) {ws vs : List Word} (h : texts ws = texts vs) : Agree (.ok (a, ws)) (.ok (a, vs))
  /-- Both stop. -/
  | stopped {halt halt' : Halt} (h : halt.fault = halt'.fault) :
    Agree (.error halt) (.error halt')

/-- Readers that agree on words with the same texts. -/
def Alike (p q : Reader α) : Prop := ∀ ws vs, texts ws = texts vs → Agree (p ws) (q vs)

variable {p q : Reader α} {f g : α → Reader β}

theorem alike_pure (a : α) : Alike (pure a) (pure a) := by
  intro ws vs h
  exact .found a h

theorem Alike.bind (hpq : Alike p q) (hfg : ∀ a, Alike (f a) (g a)) :
    Alike (p >>= f) (q >>= g) := by
  intro ws vs h
  have hagree := hpq ws vs h
  change Agree (p ws >>= fun x => f x.1 x.2) (q vs >>= fun x => g x.1 x.2)
  generalize p ws = x at hagree
  generalize q vs = y at hagree
  cases hagree with
  | found a hrest => exact hfg a _ _ hrest
  | stopped hfault => exact .stopped hfault

theorem agree_of_blind {x y : Except Halt α} {ws vs : List Word} (h : blind x = blind y)
    (htexts : texts ws = texts vs) : Agree (x.map (·, ws)) (y.map (·, vs)) := by
  cases x with
  | error halt =>
    cases y with
    | error halt' => exact .stopped (Except.error.inj h)
    | ok b => cases h
  | ok a =>
    cases y with
    | error halt => cases h
    | ok b =>
      obtain rfl : a = b := Except.ok.inj h
      exact .found a htexts

theorem alike_lift {x y : Except Halt α} (h : blind x = blind y) :
    Alike (liftM x : Reader α) (liftM y : Reader α) := by
  intro ws vs htexts
  have hlift (z : Except Halt α) (us : List Word) : (liftM z : Reader α) us = z.map (·, us) := by
    cases z <;> rfl
  rw [hlift, hlift]
  exact agree_of_blind h htexts

theorem alike_each (look : κ → β) {f : κ → Except Halt α}
    (hf : ∀ x y, look x = look y → blind (f x) = blind (f y)) {xs ys : List κ}
    (h : xs.map look = ys.map look) : Alike (each f xs) (each f ys) := by
  intro ws vs htexts
  exact agree_of_blind (blind_mapM_congr hf h) htexts

/-- The next word is looked at for its text only. -/
theorem alike_next (expected : Expected) {f g : Word → Reader β}
    (hfg : ∀ w v, w.text = v.text → Alike (f w) (g v)) :
    Alike (next expected >>= f) (next expected >>= g) := by
  intro ws vs h
  cases ws with
  | nil =>
    obtain rfl := eq_nil_of_texts h
    exact .stopped rfl
  | cons w ws =>
    obtain ⟨v, vs, rfl, hword, hrest⟩ := exists_cons_of_texts h
    exact hfg w v hword ws vs hrest

/-- Whether a word is taken is a matter of its text. -/
theorem alike_takeWhile {test : Word → Bool} (htest : ∀ w v, w.text = v.text → test w = test v)
    {f g : List Word → Reader β} (hfg : ∀ us us', texts us = texts us' → Alike (f us) (g us')) :
    Alike (takeWhile test >>= f) (takeWhile test >>= g) := by
  intro ws vs h
  -- the words are cut at the same place
  have hcut : texts (ws.takeWhile test) = texts (vs.takeWhile test) ∧
      texts (ws.dropWhile test) = texts (vs.dropWhile test) := by
    induction ws generalizing vs with
    | nil =>
      obtain rfl := eq_nil_of_texts h
      exact ⟨rfl, rfl⟩
    | cons w ws ih =>
      obtain ⟨v, vs, rfl, hword, hrest⟩ := exists_cons_of_texts h
      rw [List.takeWhile_cons, List.takeWhile_cons, List.dropWhile_cons, List.dropWhile_cons,
        htest w v hword]
      split
      · obtain ⟨htake, hdrop⟩ := ih vs hrest
        exact ⟨congrArg₂ List.cons hword htake, hdrop⟩
      · exact ⟨rfl, h⟩
  exact hfg _ _ hcut.1 _ _ hcut.2

theorem alike_fields {f g : List Word → Reader β}
    (hfg : ∀ us us', texts us = texts us' → Alike (f us) (g us')) :
    Alike (fields >>= f) (fields >>= g) :=
  alike_takeWhile (fun _ _ h => congrArg (!·) (Word.isTag_congr h)) hfg

/-! ### The grammar -/

theorem alike_unexpected {w v : Word} (h : w.text = v.text) (expected : Expected) :
    Alike (liftM (w.unexpected expected : Except Halt α) : Reader α)
      (liftM (v.unexpected expected : Except Halt α)) :=
  alike_lift (Word.blind_unexpected h expected)

theorem alike_tag (t : Tag) : Alike (tag t) (tag t) := by
  refine alike_next (.tag t) fun w v h => ?_
  rw [h]
  split
  · exact alike_pure ()
  · exact alike_unexpected h (.tag t)

theorem alike_integer : Alike integer integer := by
  refine alike_next .integer fun w v h => ?_
  rw [Word.isTag_congr h]
  split
  · exact alike_unexpected h .integer
  · exact alike_lift (Word.blind_integer h)

theorem alike_decimal : Alike decimal decimal :=
  alike_next .decimal fun _ _ h => alike_lift (Word.blind_decimal h)

theorem alike_signatures : Alike signatures signatures := by
  refine alike_next .signatures fun w v h => ?_
  rw [Word.isSignatures_congr h]
  split
  · refine alike_takeWhile (fun _ _ => Word.isSignatures_congr) fun us us' hmore => ?_
    refine (alike_each Word.text (fun _ _ => Word.blind_signatures) ?_).bind fun _ =>
      alike_pure _
    exact congrArg₂ List.cons h hmore
  · exact alike_unexpected h .signatures

theorem alike_operator : Alike operator operator := by
  refine alike_next .operatorName fun w v h => ?_
  rw [Word.isTag_congr h, Word.isSignatures_congr h, h]
  split
  · exact alike_unexpected h .operatorName
  · refine alike_next .flag fun _ _ hflag => (alike_lift (Word.blind_flag hflag)).bind fun _ => ?_
    exact alike_signatures.bind fun _ => alike_pure _

theorem alike_arc : Alike arc arc :=
  alike_integer.bind fun _ => alike_integer.bind fun _ => alike_signatures.bind fun _ =>
    alike_pure _

theorem alike_number : Alike number number := by
  refine alike_next .numberSign fun w v h => ?_
  have hchars : w.chars = v.chars := congrArg String.toList h
  rw [hchars]
  split
  · exact alike_integer
  · exact alike_lift (Word.blind_integer rfl)
  · exact alike_unexpected h .numberSign

/-! ### Tables -/

/-- Rows are found by the places of the fields, whatever the fields are. -/
theorem rows?_map {width : Nat} (f : α → β) (fs : List α) :
    Columns.rows? width (fs.map f) =
      (Columns.rows? width fs).map (List.map (Vector.map f)) := by
  unfold Columns.rows?
  by_cases hdvd : fs.length % width = 0
  · rw [if_pos (by rwa [List.length_map]), if_pos hdvd, Option.map_some, Option.some.injEq]
    refine List.ext_getElem (by simp) fun i hi hi' => Vector.ext fun j hj => ?_
    simp
  · rw [if_neg (by rwa [List.length_map]), if_neg hdvd, Option.map_none]

theorem blind_vertexRow {fs gs : Vector Word 6} (h : fs.map (·.text) = gs.map (·.text)) :
    blind (vertexRow fs) = blind (vertexRow gs) := by
  have hfield (i : Nat) (hi : i < 6) : fs[i].text = gs[i].text := by
    simpa using congrArg (·[i]) h
  simp only [vertexRow, blind_bind, Word.blind_integer (hfield _ _), Word.blind_flag (hfield _ _)]

theorem blind_resultRow {fs gs : Vector Word 5} (h : fs.map (·.text) = gs.map (·.text)) :
    blind (resultRow fs) = blind (resultRow gs) := by
  have hfield (i : Nat) (hi : i < 5) : fs[i].text = gs[i].text := by
    simpa using congrArg (·[i]) h
  simp only [resultRow, blind_bind, Word.blind_integer (hfield _ _)]

theorem alike_table (t : Tag) {width : Nat} {row : Vector Word width → Except Halt α}
    (hrow : ∀ fs gs : Vector Word width, fs.map (·.text) = gs.map (·.text) →
      blind (row fs) = blind (row gs)) : Alike (table t width row) (table t width row) := by
  refine (alike_tag t).bind fun _ => alike_fields fun us us' h => ?_
  have hrows : (Columns.rows? width us).map (List.map (Vector.map (·.text))) =
      (Columns.rows? width us').map (List.map (Vector.map (·.text))) := by
    rw [← rows?_map, ← rows?_map]
    exact congrArg _ h
  cases hus : Columns.rows? width us with
  | none =>
    have hus' : Columns.rows? width us' = none := by simpa [hus] using hrows.symm
    rw [hus']
    intro ws vs _
    refine .stopped ?_
    rw [Halt.fault_atFirst, Halt.fault_atFirst, length_eq_of_texts h]
  | some rows =>
    obtain ⟨rows', hus', hlook⟩ : ∃ rows', Columns.rows? width us' = some rows' ∧
        rows'.map (Vector.map (·.text)) = rows.map (Vector.map (·.text)) := by
      simpa [hus] using hrows.symm
    rw [hus']
    exact alike_each _ hrow hlook.symm

/-! ### Items -/

theorem alike_itemsUpTo {item : Reader α} (hitem : Alike item item) (n : Nat) :
    Alike (itemsUpTo item n) (itemsUpTo item n) := by
  induction n with
  | zero =>
    intro ws vs h
    exact .found [] h
  | succ n ih =>
    intro ws vs h
    cases ws with
    | nil =>
      obtain rfl := eq_nil_of_texts h
      exact .found [] rfl
    | cons w ws =>
      obtain ⟨v, vs, rfl, hword, -⟩ := exists_cons_of_texts h
      rw [itemsUpTo, itemsUpTo, Word.isTag_congr hword]
      split
      · exact .found [] h
      · exact (hitem.bind fun a => ih.bind fun as => alike_pure (a :: as)) _ _ h

theorem alike_items {item : Reader α} (hitem : Alike item item) :
    Alike (items item) (items item) := by
  intro ws vs h
  rw [items, items, length_eq_of_texts h]
  exact alike_itemsUpTo hitem _ ws vs h

/-! ### Records -/

theorem alike_record : Alike record record :=
  (alike_tag .contraction).bind fun _ => alike_number.bind fun _ =>
  (alike_tag .result).bind fun _ => alike_operator.bind fun _ =>
  (alike_tag .factor).bind fun _ => alike_decimal.bind fun _ => alike_decimal.bind fun _ =>
  alike_decimal.bind fun _ =>
  (alike_tag .vertexCounts).bind fun _ => alike_integer.bind fun _ => alike_integer.bind fun _ =>
  (alike_tag .superVertices).bind fun _ => alike_fields fun _ _ h =>
  (alike_each Word.text (fun _ _ => Word.blind_integer) h).bind fun _ =>
  (alike_tag .arcCounts).bind fun _ => alike_integer.bind fun _ => alike_integer.bind fun _ =>
  (alike_tag .vertices).bind fun _ => (alike_items alike_operator).bind fun _ =>
  (alike_tag .arcs).bind fun _ => (alike_items alike_arc).bind fun _ =>
  (alike_tag .externalArcs).bind fun _ => (alike_items alike_arc).bind fun _ =>
  (alike_table .vertexTable fun _ _ => blind_vertexRow).bind fun _ =>
  (alike_table .resultTable fun _ _ => blind_resultRow).bind fun _ => alike_pure _

end Reader

/-! ### Exports -/

namespace Reading

variable {ws vs : List Word}

/-- On words with the same texts the same records are found, and the same fault puts an end to
them. -/
theorem scan_alike (n : Nat) (h : texts ws = texts vs) :
    (scan n ws).1 = (scan n vs).1 ∧
      (scan n ws).2.map Halt.fault = (scan n vs).2.map Halt.fault := by
  induction n generalizing ws vs with
  | zero => exact ⟨rfl, rfl⟩
  | succ n ih =>
    cases ws with
    | nil =>
      obtain rfl := eq_nil_of_texts h
      exact ⟨rfl, rfl⟩
    | cons w ws =>
      have hrecord := Reader.alike_record _ _ h
      obtain ⟨v, vs, rfl, hword, hrest⟩ := exists_cons_of_texts h
      rw [scan.eq_def, scan.eq_def (n + 1)]
      simp only [hword]
      split
      · -- the final word: nothing may follow it
        cases ws with
        | nil =>
          obtain rfl := eq_nil_of_texts hrest
          exact ⟨rfl, rfl⟩
        | cons extra ws =>
          obtain ⟨extra', vs, rfl, hextra, -⟩ := exists_cons_of_texts hrest
          simp [Halt.fault, hextra]
      · split
        · generalize Reader.record (w :: ws) = x at hrecord
          generalize Reader.record (v :: vs) = y at hrecord
          cases hrecord with
          | found r hleft =>
            obtain ⟨hrecords, hhalt⟩ := ih hleft
            exact ⟨congrArg (List.cons r) hrecords, hhalt⟩
          | stopped hfault => exact ⟨rfl, congrArg some hfault⟩
        · exact ⟨rfl, rfl⟩

end Reading

namespace Record

/-- What reading gives apart from the line: all records, or what puts an end to them. -/
theorem mapError_fault_readAll (text : String) :
    (readAll text).mapError (·.fault) =
      match (Reading.scan (words text).length (words text)).2.map Halt.fault with
      | none => .ok (Reading.scan (words text).length (words text)).1
      | some fault => .error fault := by
  rw [readAll, Reading.ofText, Reading.ofWords]
  rcases Reading.scan (words text).length (words text) with ⟨rs, halt?⟩
  cases halt? with
  | none => rfl
  | some halt => exact congrArg Except.error (halt.fault_toError _)

/-- **The layout of a text does not matter**: texts with the same words give the same records, or
errors that differ in nothing but the line. -/
theorem readAll_mapError_fault {text text' : String} (h : runs text = runs text') :
    (readAll text).mapError (·.fault) = (readAll text').mapError (·.fault) := by
  have htexts : texts (words text) = texts (words text') := by
    rw [texts, texts, map_text_words, map_text_words, h]
  obtain ⟨hrecords, hfault⟩ := Reading.scan_alike (words text).length htexts
  rw [mapError_fault_readAll, mapError_fault_readAll, ← length_eq_of_texts htexts, hrecords, hfault]

/-- One wrong flag, on the first line of a text and on the fourth of another. -/
theorem readAll_mapError_fault_apart :
    runs "[CONTR] #1 [RESULT] R X" = runs "\r\n[CONTR]\u2003#1\n\n[RESULT]\tR\u00a0X" ∧
    readAll "[CONTR] #1 [RESULT] R X" = .error ⟨1, .notFlag "X"⟩ ∧
    readAll "\r\n[CONTR]\u2003#1\n\n[RESULT]\tR\u00a0X" = .error ⟨4, .notFlag "X"⟩ ∧
    (readAll "[CONTR] #1 [RESULT] R X").mapError (·.fault) =
      (readAll "\r\n[CONTR]\u2003#1\n\n[RESULT]\tR\u00a0X").mapError (·.fault) := by
  have hruns : runs "[CONTR] #1 [RESULT] R X" =
      runs "\r\n[CONTR]\u2003#1\n\n[RESULT]\tR\u00a0X" := by decide +kernel
  exact ⟨hruns, by decide +kernel, by decide +kernel, readAll_mapError_fault hruns⟩

end Record
end TensorContraction
