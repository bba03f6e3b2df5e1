import Mathlib.Data.List.Basic
import TensorContraction.Proofs.Writing
import TensorContraction.Text.Json

/-!
# Documents that can be read back

The text of a document is read from the front.  Its first character tells what kind of value it
is.  A string ends at the first quotation mark that no backslash announces, and a number where
its digits end.  A list or an object ends where a line break stands behind an entry, with no
comma in front of it.  So a value is known, and so is what follows it, as long as what follows
does not go on with the digits of a number: it is the end of a line or of the text.

## Main definitions

* `Json.Escapes` — the ways in which a string writes one of its characters.
* `Json.EndsEntry`, `Json.Readable` — what may follow a value, and what is known where it does.
* `Json.lead` — what the values of one kind open with.

## Main results

* `Json.quote_append_inj`, `Json.blockChars_append_inj` — strings, and entries between brackets.
* `Json.induct` — induction over the values in a document.
* `Json.readable_writeAt`, `Json.write_inj` — a document is known by its text.
-/

namespace TensorContraction.Text.Json

variable {xs ys : List Char}

/-! ### Strings -/

/-- The characters that are escaped by a letter or by themselves, each with what stands behind
the backslash. -/
def marks : List (Char × Char) :=
  [('"', '"'), ('\\', '\\'), ('\x08', 'b'), ('\t', 't'), ('\n', 'n'), ('\x0c', 'f'), ('\r', 'r')]

/-- How a string writes one of its characters. -/
inductive Escapes : Char → List Char → Prop
  /-- By a backslash and a mark. -/
  | marked {c m : Char} (h : (c, m) ∈ marks) : Escapes c ['\\', m]
  /-- By its number in hexadecimal digits. -/
  | coded {c : Char} (h : c.toNat < 32) :
    Escapes c ['\\', 'u', '0', '0', hexDigit (c.toNat / 16), hexDigit (c.toNat % 16)]
  /-- By itself. -/
  | plain {c : Char} (hquote : c ≠ '"') (hslash : c ≠ '\\') : Escapes c [c]

theorem escapes_escape (c : Char) : Escapes c (escape c) := by
  have hmark (d m : Char) (hd : c.toNat = d.toNat) (hm : (d, m) ∈ marks) : Escapes c ['\\', m] :=
    .marked (Char.toNat_inj.mp hd ▸ hm)
  unfold escape
  split
  · next h =>
    obtain rfl : c = '"' := Char.toNat_inj.mp h
    exact .marked (by decide)
  · next h =>
    obtain rfl : c = '\\' := Char.toNat_inj.mp h
    exact .marked (by decide)
  · next h => exact hmark '\x08' 'b' h (by decide)
  · next h => exact hmark '\t' 't' h (by decide)
  · next h => exact hmark '\n' 'n' h (by decide)
  · next h => exact hmark '\x0c' 'f' h (by decide)
  · next h => exact hmark '\r' 'r' h (by decide)
  · next hquote hslash _ _ _ _ _ =>
    split
    · next h => exact .coded h
    · exact .plain (fun h => hquote (h ▸ rfl)) fun h => hslash (h ▸ rfl)

theorem hexDigit_inj {m n : Nat} (hm : m < 16) (hn : n < 16) :
    hexDigit m = hexDigit n ↔ m = n := by
  have hall : ∀ i j : Fin 16, hexDigit i = hexDigit j ↔ i = j := by decide
  rw [← Fin.mk.injEq m hm n hn]
  exact hall ⟨m, hm⟩ ⟨n, hn⟩

namespace Escapes

variable {c d : Char} {cs ds : List Char}

theorem ne_quote (h : Escapes c cs) : cs ++ xs ≠ '"' :: ys := by
  cases h with
  | marked _ => simp
  | coded _ => simp
  | plain hquote _ => simp [hquote]

/-- No mark is taken for the start of a number. -/
theorem mark_ne {m : Char} (h : (c, m) ∈ marks) : m ≠ 'u' := by
  have hall : ∀ p ∈ marks, p.2 ≠ 'u' := by decide
  exact hall _ h

theorem eq_of_mark {m : Char} (hc : (c, m) ∈ marks) (hd : (d, m) ∈ marks) : c = d := by
  have hall : ∀ p ∈ marks, ∀ q ∈ marks, p.2 = q.2 → p.1 = q.1 := by decide
  exact hall _ hc _ hd rfl

/-- **A character is known by how a string writes it**, and so is what follows. -/
theorem inj (hc : Escapes c cs) (hd : Escapes d ds) (h : cs ++ xs = ds ++ ys) :
    c = d ∧ xs = ys := by
  cases hc with
  | marked hm =>
    cases hd with
    | marked hm' =>
      obtain ⟨rfl, hrest⟩ := List.cons.inj (List.cons.inj h).2
      exact ⟨eq_of_mark hm hm', hrest⟩
    | coded _ => exact absurd (List.cons.inj (List.cons.inj h).2).1 (mark_ne hm)
    | plain _ hslash => exact absurd (List.cons.inj h).1.symm hslash
  | coded hc =>
    cases hd with
    | marked hm => exact absurd (List.cons.inj (List.cons.inj h).2).1.symm (mark_ne hm)
    | coded hd =>
      simp only [List.cons_append, List.nil_append, List.cons.injEq, true_and] at h
      obtain ⟨hhigh, hlow, rfl⟩ := h
      rw [hexDigit_inj (by omega) (by omega)] at hhigh hlow
      exact ⟨Char.toNat_inj.mp (by omega), rfl⟩
    | plain _ hslash => exact absurd (List.cons.inj h).1.symm hslash
  | plain _ hslash =>
    cases hd with
    | marked _ => exact absurd (List.cons.inj h).1 hslash
    | coded _ => exact absurd (List.cons.inj h).1 hslash
    | plain _ _ => exact List.cons.inj h

end Escapes

theorem escaped_append_inj {s t : List Char}
    (h : s.flatMap escape ++ '"' :: xs = t.flatMap escape ++ '"' :: ys) : s = t ∧ xs = ys := by
  induction s generalizing t with
  | nil =>
    cases t with
    | nil => simpa using h
    | cons d t =>
      rw [List.flatMap_cons, List.append_assoc] at h
      exact absurd h.symm (escapes_escape d).ne_quote
  | cons c s ih =>
    cases t with
    | nil =>
      rw [List.flatMap_cons, List.append_assoc] at h
      exact absurd h (escapes_escape c).ne_quote
    | cons d t =>
      rw [List.flatMap_cons, List.flatMap_cons, List.append_assoc, List.append_assoc] at h
      obtain ⟨rfl, hrest⟩ := (escapes_escape c).inj (escapes_escape d) h
      obtain ⟨rfl, rfl⟩ := ih hrest
      exact ⟨rfl, rfl⟩

theorem toList_quote (s : String) :
    (quote s).toList = '"' :: (s.toList.flatMap escape ++ ['"']) := by
  simp [quote]

/-- **A string is known by its text**, whatever follows. -/
theorem quote_append_inj {s t : String} :
    (quote s).toList ++ xs = (quote t).toList ++ ys ↔ s = t ∧ xs = ys := by
  rw [toList_quote, toList_quote]
  constructor
  · intro h
    simp only [List.cons_append, List.append_assoc, List.nil_append, List.cons.injEq,
      true_and] at h
    obtain ⟨hs, hxs⟩ := escaped_append_inj h
    exact ⟨String.toList_inj.mp hs, hxs⟩
  · rintro ⟨rfl, rfl⟩
    rfl

/-! ### Numbers -/

/-- What may follow a value: the end of its line, behind a comma or not, or of the text. -/
def EndsEntry (cs : List Char) : Prop := ∀ c ∈ cs.head?, c = ',' ∨ c = '\n'

theorem endsEntry_comma (cs : List Char) : EndsEntry (',' :: cs) := by simp [EndsEntry]

theorem endsEntry_newline (cs : List Char) : EndsEntry ('\n' :: cs) := by simp [EndsEntry]

theorem EndsEntry.isDigit_eq_false (h : EndsEntry xs) : ∀ c ∈ xs.head?, c.isDigit = false := by
  intro c hc
  rcases h c hc with rfl | rfl <;> rfl

/-- A number is known by its text if no digit follows. -/
theorem number_append_inj {m n : Nat} (hxs : EndsEntry xs) (hys : EndsEntry ys)
    (h : (toString m).toList ++ xs = (toString n).toList ++ ys) : m = n ∧ xs = ys := by
  rw [toList_toString, toList_toString] at h
  obtain ⟨hdigits, hrest⟩ := (run_append_inj (fun _ hc => isDigit_of_mem_toDigits hc)
    (fun _ hc => isDigit_of_mem_toDigits hc) hxs.isDigit_eq_false hys.isDigit_eq_false).mp h
  exact ⟨toDigits_inj.mp hdigits, hrest⟩

/-! ### Entries between brackets -/

/-- The characters of the entries behind the first, and of the closing bracket. -/
def restChars (level : Nat) (closing : Char) (entries : List (List Char)) : List Char :=
  (entries.flatMap fun entry => ',' :: '\n' :: ((indent (level + 1)).toList ++ entry))
    ++ '\n' :: ((indent level).toList ++ [closing])

/-- The characters of entries between brackets. -/
def blockChars (level : Nat) (opening closing : Char) : List (List Char) → List Char
  | [] => [opening, closing]
  | entry :: entries =>
    opening :: '\n' :: ((indent (level + 1)).toList ++ (entry ++ restChars level closing entries))

theorem toList_block {opening closing : String} {o c : Char} (ho : opening.toList = [o])
    (hc : closing.toList = [c]) (level : Nat) (entries : List String) :
    (block level opening closing entries).toList =
      blockChars level o c (entries.map String.toList) := by
  cases entries with
  | nil => simp [block, blockChars, ho, hc]
  | cons entry entries =>
    simp only [block, blockChars, restChars, String.toList_append, String.toList_intercalate,
      List.map_cons, List.map_map, intercalate_cons, ho, hc]
    simp [List.flatMap_map]

theorem endsEntry_restChars (level : Nat) (closing : Char) (entries : List (List Char)) :
    EndsEntry (restChars level closing entries ++ xs) := by
  cases entries with
  | nil => exact endsEntry_newline _
  | cons entry entries => exact endsEntry_comma _

section Block

variable {α : Type} {f : α → List Char} {level : Nat} {opening closing : Char} {as bs : List α}

/-- A value is known, with what follows, where an entry ends. -/
def Readable (f : α → List Char) (a : α) : Prop :=
  ∀ b xs ys, EndsEntry xs → EndsEntry ys → f a ++ xs = f b ++ ys → a = b ∧ xs = ys

theorem restChars_append_inj (hf : ∀ a ∈ as, Readable f a)
    (h : restChars level closing (as.map f) ++ xs = restChars level closing (bs.map f) ++ ys) :
    as = bs ∧ xs = ys := by
  have hcons (a : α) (cs : List α) (zs : List Char) :
      restChars level closing ((a :: cs).map f) ++ zs =
        ',' :: '\n' :: ((indent (level + 1)).toList ++
          (f a ++ (restChars level closing (cs.map f) ++ zs))) := by
    simp [restChars]
  induction as generalizing bs with
  | nil =>
    cases bs with
    | nil => simpa [restChars] using h
    | cons b bs =>
      rw [hcons] at h
      simp [restChars] at h
  | cons a as ih =>
    cases bs with
    | nil =>
      rw [hcons] at h
      simp [restChars] at h
    | cons b bs =>
      rw [hcons, hcons] at h
      simp only [List.cons.injEq, true_and, List.append_cancel_left_eq] at h
      rcases List.forall_mem_cons.mp hf with ⟨ha, has⟩
      obtain ⟨rfl, hrest⟩ :=
        ha b _ _ (endsEntry_restChars _ _ _) (endsEntry_restChars _ _ _) h
      obtain ⟨rfl, rfl⟩ := ih has hrest
      exact ⟨rfl, rfl⟩

/-- **Entries between brackets are known by their text**, if each entry is. -/
theorem blockChars_append_inj (hclosing : closing ≠ '\n') (hf : ∀ a ∈ as, Readable f a)
    (h : blockChars level opening closing (as.map f) ++ xs =
      blockChars level opening closing (bs.map f) ++ ys) : as = bs ∧ xs = ys := by
  cases as with
  | nil =>
    cases bs with
    | nil => simpa [blockChars] using h
    | cons b bs => exact absurd (List.cons.inj (List.cons.inj h).2).1 hclosing
  | cons a as =>
    cases bs with
    | nil => exact absurd (List.cons.inj (List.cons.inj h).2).1.symm hclosing
    | cons b bs =>
      simp only [List.map_cons, blockChars, List.cons_append, List.append_assoc,
        List.cons.injEq, true_and, List.append_cancel_left_eq] at h
      rcases List.forall_mem_cons.mp hf with ⟨ha, has⟩
      obtain ⟨rfl, hrest⟩ :=
        ha b _ _ (endsEntry_restChars _ _ _) (endsEntry_restChars _ _ _) h
      obtain ⟨rfl, rfl⟩ := restChars_append_inj has hrest
      exact ⟨rfl, rfl⟩

end Block

/-! ### Documents -/

/-- Induction over a document: what holds of a list or an object may rest on the values in it. -/
@[elab_as_elim]
theorem induct {P : Json → Prop} (string : ∀ s, P (.string s)) (number : ∀ n, P (.number n))
    (bool : ∀ b, P (.bool b)) (list : ∀ items, (∀ item ∈ items, P item) → P (.list items))
    (object : ∀ fields, (∀ field ∈ fields, P field.2) → P (.object fields)) (d : Json) : P d :=
  Json.rec (motive_1 := P) (motive_2 := fun items => ∀ item ∈ items, P item)
    (motive_3 := fun fields => ∀ field ∈ fields, P field.2) (motive_4 := fun field => P field.2)
    string number bool list object (by simp) (fun _ _ h hs => List.forall_mem_cons.mpr ⟨h, hs⟩)
    (by simp) (fun _ _ h hs => List.forall_mem_cons.mpr ⟨h, hs⟩) (fun _ _ h => h) d

theorem writeItems_eq (level : Nat) (items : List Json) :
    writeItems level items = items.map (writeAt level) := by
  induction items with
  | nil => rfl
  | cons item items ih => rw [writeItems, ih, List.map_cons]

/-- The characters of a field on a level. -/
def fieldChars (level : Nat) (field : String × Json) : List Char :=
  (quote field.1).toList ++ ':' :: ' ' :: (writeAt level field.2).toList

theorem writeFields_eq (level : Nat) (fields : List (String × Json)) :
    (writeFields level fields).map String.toList = fields.map (fieldChars level) := by
  induction fields with
  | nil => rfl
  | cons field fields ih =>
    rw [writeFields, List.map_cons, List.map_cons, ih]
    simp [fieldChars]

theorem toList_writeAt_list (level : Nat) (items : List Json) :
    (writeAt level (.list items)).toList =
      blockChars level '[' ']' (items.map fun item => (writeAt (level + 1) item).toList) := by
  rw [writeAt, toList_block (o := '[') (c := ']') rfl rfl, writeItems_eq, List.map_map]
  rfl

theorem toList_writeAt_object (level : Nat) (fields : List (String × Json)) :
    (writeAt level (.object fields)).toList =
      blockChars level '\x7b' '\x7d' (fields.map (fieldChars (level + 1))) := by
  rw [writeAt, toList_block (o := '\x7b') (c := '\x7d') rfl rfl, writeFields_eq]

/-- One character for all that values of one kind can open with. -/
def leadOf (c : Char) : Char := if c.isDigit then '0' else if c = 'f' then 't' else c

/-- What the values of one kind open with. -/
def lead : Json → Char
  | string _ => '"'
  | number _ => '0'
  | bool _ => 't'
  | list _ => '['
  | object _ => '\x7b'

theorem head?_blockChars (level : Nat) (o c : Char) (entries : List (List Char)) :
    (blockChars level o c entries).head? = some o := by
  cases entries <;> rfl

theorem leadOf_head?_writeAt (level : Nat) (d : Json) :
    (writeAt level d).toList.head?.map leadOf = some d.lead := by
  cases d with
  | string s =>
    rw [writeAt, toList_quote]
    rfl
  | number n =>
    obtain ⟨c, cs, hcs⟩ := List.exists_cons_of_ne_nil (Nat.toDigits_ne_nil (b := 10) (n := n))
    have hdigit : c.isDigit = true :=
      isDigit_of_mem_toDigits (n := n) (by rw [hcs]; exact List.mem_cons_self)
    rw [writeAt, toList_toString, hcs, List.head?_cons, Option.map_some, leadOf, if_pos hdigit]
    rfl
  | bool b => cases b <;> simp [writeAt, leadOf, lead]
  | list items =>
    rw [toList_writeAt_list, head?_blockChars]
    rfl
  | object fields =>
    rw [toList_writeAt_object, head?_blockChars]
    rfl

theorem lead_eq_of_append_eq {d e : Json} {level : Nat}
    (h : (writeAt level d).toList ++ xs = (writeAt level e).toList ++ ys) : d.lead = e.lead := by
  have hhead (d : Json) (zs : List Char) :
      ((writeAt level d).toList ++ zs).head?.map leadOf = some d.lead := by
    have hd := leadOf_head?_writeAt level d
    cases hcs : (writeAt level d).toList with
    | nil => simp [hcs] at hd
    | cons c cs => simpa [hcs] using hd
  rw [← Option.some_inj, ← hhead d xs, h, hhead e ys]

theorem bool_append_inj {b c : Bool} {level : Nat}
    (h : (writeAt level (.bool b)).toList ++ xs = (writeAt level (.bool c)).toList ++ ys) :
    b = c ∧ xs = ys := by
  cases b <;> cases c <;> simp_all [writeAt]

/-- A field is known by its text if its value is. -/
theorem readable_fieldChars {level : Nat} {field : String × Json}
    (h : Readable (fun e => (writeAt level e).toList) field.2) :
    Readable (fieldChars level) field := by
  intro field' xs ys hxs hys heq
  simp only [fieldChars, List.append_assoc, List.cons_append, quote_append_inj,
    List.cons.injEq, true_and] at heq
  obtain ⟨hname, heq⟩ := heq
  obtain ⟨hvalue, hrest⟩ := h _ _ _ hxs hys heq
  exact ⟨Prod.ext hname hvalue, hrest⟩

/-- **A value is known by its text**, if its line or the text ends behind it. -/
theorem readable_writeAt (d : Json) (level : Nat) :
    Readable (fun e => (writeAt level e).toList) d := by
  -- on the values in the document; a value has entries of the next level
  induction d using induct generalizing level with
  | string s =>
    intro e xs ys _ _ h
    cases e with
    | string t =>
      obtain ⟨rfl, rfl⟩ := quote_append_inj.mp h
      exact ⟨rfl, rfl⟩
    | _ => exact absurd (lead_eq_of_append_eq h) (by simp [lead])
  | number m =>
    intro e xs ys hxs hys h
    cases e with
    | number n =>
      obtain ⟨rfl, rfl⟩ := number_append_inj hxs hys h
      exact ⟨rfl, rfl⟩
    | _ => exact absurd (lead_eq_of_append_eq h) (by simp [lead])
  | bool b =>
    intro e xs ys _ _ h
    cases e with
    | bool c =>
      obtain ⟨rfl, rfl⟩ := bool_append_inj h
      exact ⟨rfl, rfl⟩
    | _ => exact absurd (lead_eq_of_append_eq h) (by simp [lead])
  | list items ih =>
    intro e xs ys _ _ h
    cases e with
    | list items' =>
      simp only [toList_writeAt_list] at h
      obtain ⟨rfl, rfl⟩ := blockChars_append_inj (by decide)
        (fun item hitem => ih item hitem (level + 1)) h
      exact ⟨rfl, rfl⟩
    | _ => exact absurd (lead_eq_of_append_eq h) (by simp [lead])
  | object fields ih =>
    intro e xs ys _ _ h
    cases e with
    | object fields' =>
      simp only [toList_writeAt_object] at h
      obtain ⟨rfl, rfl⟩ := blockChars_append_inj (by decide)
        (fun field hfield => readable_fieldChars (ih field hfield (level + 1))) h
      exact ⟨rfl, rfl⟩
    | _ => exact absurd (lead_eq_of_append_eq h) (by simp [lead])

/-- **A document is known by its text.** -/
theorem write_inj {d e : Json} : write d = write e ↔ d = e := by
  constructor
  · intro h
    have hchars := congrArg String.toList h
    simp only [write, String.toList_append] at hchars
    exact (readable_writeAt d 0 e _ _ (endsEntry_newline []) (endsEntry_newline []) hchars).1
  · rintro rfl
    rfl

end TensorContraction.Text.Json
