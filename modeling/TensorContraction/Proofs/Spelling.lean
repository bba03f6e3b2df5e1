import TensorContraction.Proofs.Layout
import TensorContraction.Proofs.Numeral
import TensorContraction.Record.Basic

/-!
# How an export spells records

An export spells its records by a sequence of words, each record by a fixed sequence of
sections.  Which words a section may hold, and what they say, is stated here without any
reading: as relations between words and the values they spell.

## Main definitions

* `Spelling.RecordWords` — the words of one record.
* `Spelling.ExportWords` — the words of an export.
-/

namespace TensorContraction.Spelling

variable {α : Type}

/-! ### Words -/

/-- A word that spells an integer. -/
def Integer (w : String) (n : Int) : Prop := Text.WritesInteger w.toList n

/-- A word that spells a decimal. -/
def Decimal (w : String) (q : Rat) : Prop := Text.WritesDecimal w.toList q

/-- A word that spells a flag. -/
def Flag (w : String) (b : Bool) : Prop := w = "T" ∧ b = true ∨ w = "F" ∧ b = false

/-- A word that spells one signature or more. -/
def Signatures (w : String) (ss : List Signature) : Prop :=
  ss ≠ [] ∧ w.toList = SignatureText.writeAll ss

/-- A word that can name an operator: neither the opening of a section nor signatures. -/
def Name (w : String) : Prop := w.toList.head? ≠ some '[' ∧ w.toList.head? ≠ some '('

/-! ### Phrases -/

/-- What a sequence of words spells. -/
abbrev Phrase (α : Type) := List String → α → Prop

/-- A phrase of one word. -/
def Single (W : String → α → Prop) : Phrase α := fun ws a => ∃ w, ws = [w] ∧ W w a

/-- Phrases one after another. -/
inductive Several (P : Phrase α) : Phrase (List α)
  /-- No phrase. -/
  | nil : Several P [] []
  /-- A phrase and those that follow. -/
  | cons {us ws : List String} {a : α} {as : List α} (head : P us a) (tail : Several P ws as) :
    Several P (us ++ ws) (a :: as)

/-- Phrases that are left out take their words with them. -/
theorem Several.sublist {P : Phrase α} {ws : List String} {as as' : List α}
    (h : Several P ws as) (hsub : as'.Sublist as) :
    ∃ ws', ws'.Sublist ws ∧ Several P ws' as' := by
  induction h generalizing as' with
  | nil =>
    obtain rfl := List.sublist_nil.mp hsub
    exact ⟨[], .refl _, .nil⟩
  | cons head tail ih =>
    cases hsub with
    | cons _ hsub =>
      obtain ⟨ws', hws, h⟩ := ih hsub
      exact ⟨ws', hws.trans (List.sublist_append_right _ _), h⟩
    | cons_cons _ hsub =>
      obtain ⟨ws', hws, h⟩ := ih hsub
      exact ⟨_, hws.append_left _, .cons head h⟩

/-- One word of signatures or more, taken together. -/
def SignatureWords : Phrase (List Signature) := fun ws ss =>
  ws ≠ [] ∧ ∃ parts, List.Forall₂ Signatures ws parts ∧ parts.flatten = ss

/-- An operator: its name, whether it is transposed, and its signatures. -/
inductive OperatorWords : Phrase Operator
  /-- The parts of an operator. -/
  | parts {name flag : String} {signatures : List String} {transposed : Bool}
    {slots : List Signature} (hname : Name name) (hflag : Flag flag transposed)
    (hsignatures : SignatureWords signatures slots) :
    OperatorWords (name :: flag :: signatures) ⟨name, transposed, slots⟩

/-- An arc: its two ends and the spaces along it. -/
inductive ArcWords : Phrase (Arc Int)
  /-- The parts of an arc. -/
  | parts {v w : String} {signatures : List String} {first second : Int}
    {spaces : List Signature} (hfirst : Integer v first) (hsecond : Integer w second)
    (hsignatures : SignatureWords signatures spaces) :
    ArcWords (v :: w :: signatures) ⟨first, second, spaces⟩

/-- The number of a record: a number sign and an integer, in two words or in one. -/
inductive NumberWords : Phrase Int
  /-- Two words. -/
  | apart {w : String} {n : Int} (hn : Integer w n) : NumberWords ["#", w] n
  /-- One word. -/
  | together {w : String} {n : Int} (hn : Integer w n) : NumberWords ["#" ++ w] n

/-- The fields of a table, column after column. -/
def TableWords {width : Nat} (Row : Vector String width → α → Prop) : Phrase (List α) :=
  fun ws as => ∃ rows, Columns.fields rows = ws ∧ List.Forall₂ Row rows as

/-- The fields of an index on a vertex. -/
structure VertexFields (fields : Vector String 6) (row : VertexRow) : Prop where
  /-- The first column has the vertices. -/
  vertex : Integer (fields.get 0) row.vertex
  /-- The second column has the roles. -/
  role : Integer (fields.get 1) row.role
  /-- The third column has the spaces. -/
  space : Integer (fields.get 2) row.space
  /-- The fourth column tells which indices are left open. -/
  external : Flag (fields.get 3) row.external
  /-- The fifth column has the arcs. -/
  arc : Integer (fields.get 4) row.arc
  /-- The sixth column has the numbers. -/
  id : Integer (fields.get 5) row.id

/-- The fields of an index of the result. -/
structure ResultFields (fields : Vector String 5) (row : ResultRow) : Prop where
  /-- The first column has the slots. -/
  vertex : Integer (fields.get 0) row.vertex
  /-- The second column has the roles. -/
  role : Integer (fields.get 1) row.role
  /-- The third column has the spaces. -/
  space : Integer (fields.get 2) row.space
  /-- The fourth column has the slots once more. -/
  duplicate : Integer (fields.get 3) row.duplicate
  /-- The fifth column has the numbers. -/
  id : Integer (fields.get 4) row.id

/-! ### Records -/

/-- The sections of one record. -/
inductive RecordWords : Phrase Record
  /-- Each section opens with a word of its own. -/
  | sections {r : Record} {number result superVertices vertices arcs externalArcs vertexTable
      resultTable : List String} {external sign magnitude vertexCount operatorCount arcCount
      externalArcCount : String}
    (hnumber : NumberWords number r.id)
    (hresult : OperatorWords result r.result)
    (hexternal : Decimal external r.factor.external)
    (hsign : Decimal sign r.factor.sign)
    (hmagnitude : Decimal magnitude r.factor.magnitude)
    (hvertexCount : Integer vertexCount r.vertexCount)
    (hoperatorCount : Integer operatorCount r.operatorCount)
    (hsuperVertices : List.Forall₂ Integer superVertices r.superVertices)
    (harcCount : Integer arcCount r.arcCount)
    (hexternalArcCount : Integer externalArcCount r.externalArcCount)
    (hvertices : Several OperatorWords vertices r.vertices)
    (harcs : Several ArcWords arcs r.arcs)
    (hexternalArcs : Several ArcWords externalArcs r.externalArcs)
    (hvertexTable : TableWords VertexFields vertexTable r.vertexRows)
    (hresultTable : TableWords ResultFields resultTable r.resultRows) :
    RecordWords
      [ "[CONTR]" :: number,
        "[RESULT]" :: result,
        ["[FACTOR]", external, sign, magnitude],
        ["[#VERTICES]", vertexCount, operatorCount],
        "[SVERTEX]" :: superVertices,
        ["[#ARCS]", arcCount, externalArcCount],
        "[VERTICES]" :: vertices,
        "[ARCS]" :: arcs,
        "[XARCS]" :: externalArcs,
        "[CONTR_STRING]" :: vertexTable,
        "[RESULT_STRING]" :: resultTable ].flatten r

/-- The records of an export, one after another, and the final word. -/
def ExportWords : Phrase (List Record) := fun ws rs =>
  ∃ body, Several RecordWords body rs ∧ ws = body ++ ["[END]"]

/-! ### First letters -/

variable {w : String}

theorem head?_ne_of_digits {cs ds : List Char} {negative : Bool} {c : Char}
    (h : Text.Signed cs negative ds) (hds : Text.Digits ds) (hc : c = '[' ∨ c = '(') :
    cs.head? ≠ some c := by
  have hletters : ∀ d ∈ cs, d ≠ '[' ∧ d ≠ '(' := by
    refine h.forall_mem (fun d hd => ?_) (by decide) (by decide)
    constructor <;> rintro rfl <;> simpa using hds.2 _ hd
  intro hhead
  have := hletters c (List.mem_of_mem_head? hhead)
  rcases hc with rfl | rfl <;> simp at this

theorem Integer.head?_ne {n : Int} {c : Char} (h : Integer w n) (hc : c = '[' ∨ c = '(') :
    w.toList.head? ≠ some c := by
  obtain ⟨negative, digits, hsigned, hdigits, -⟩ := h.exists_digits
  exact head?_ne_of_digits hsigned hdigits hc

theorem Integer.toList_ne_nil {n : Int} (h : Integer w n) : w.toList ≠ [] := by
  obtain ⟨negative, digits, hsigned, hdigits, -⟩ := h.exists_digits
  intro hnil
  rw [hnil] at hsigned
  cases hsigned
  exact hdigits.1 rfl

theorem Flag.head?_ne {b : Bool} {c : Char} (h : Flag w b) (hc : c = '[' ∨ c = '(') :
    w.toList.head? ≠ some c := by
  rcases h with ⟨rfl, -⟩ | ⟨rfl, -⟩ <;> rcases hc with rfl | rfl <;> decide

theorem Signatures.head?_eq {ss : List Signature} (h : Signatures w ss) :
    w.toList.head? = some '(' := by
  obtain ⟨hne, htext⟩ := h
  obtain ⟨s, ss, rfl⟩ := List.exists_cons_of_ne_nil hne
  rw [htext]
  rfl

/-- No field of a table can be taken for the opening of a section. -/
theorem VertexFields.head?_ne {fs : Vector String 6} {row : VertexRow} (h : VertexFields fs row) :
    ∀ w ∈ fs, w.toList.head? ≠ some '[' := by
  intro w hw
  obtain ⟨i, hi, rfl⟩ := Vector.mem_iff_getElem.mp hw
  match i, hi with
  | 0, _ => exact h.vertex.head?_ne (.inl rfl)
  | 1, _ => exact h.role.head?_ne (.inl rfl)
  | 2, _ => exact h.space.head?_ne (.inl rfl)
  | 3, _ => exact h.external.head?_ne (.inl rfl)
  | 4, _ => exact h.arc.head?_ne (.inl rfl)
  | 5, _ => exact h.id.head?_ne (.inl rfl)

theorem ResultFields.head?_ne {fs : Vector String 5} {row : ResultRow} (h : ResultFields fs row) :
    ∀ w ∈ fs, w.toList.head? ≠ some '[' := by
  intro w hw
  obtain ⟨i, hi, rfl⟩ := Vector.mem_iff_getElem.mp hw
  match i, hi with
  | 0, _ => exact h.vertex.head?_ne (.inl rfl)
  | 1, _ => exact h.role.head?_ne (.inl rfl)
  | 2, _ => exact h.space.head?_ne (.inl rfl)
  | 3, _ => exact h.duplicate.head?_ne (.inl rfl)
  | 4, _ => exact h.id.head?_ne (.inl rfl)

/-- Phrases that open with a word that can name an operator. -/
def Named (P : Phrase α) : Prop := ∀ us a, P us a → ∃ w vs, us = w :: vs ∧ Name w

theorem operatorWords_named : Named OperatorWords := by
  intro us o h
  cases h with
  | parts hname _ _ => exact ⟨_, _, rfl, hname⟩

theorem arcWords_named : Named ArcWords := by
  intro us a h
  cases h with
  | parts hfirst _ _ => exact ⟨_, _, rfl, hfirst.head?_ne (.inl rfl), hfirst.head?_ne (.inr rfl)⟩

end TensorContraction.Spelling
