import TensorContraction.Proofs.Reading

/-!
# Reading inverts spelling

The sections of variable length go on up to the next opening of a section: fields, tables and
runs of operators and arcs.  None of their words can be taken for such an opening, so each
section is read to its end and no further.  Putting the sections together, a record is read
exactly if its words spell it, and so is an export.

## Main results

* `Reader.reads_table`, `Reader.reads_items` — sections of variable length.
* `Reader.recordSections_iff`, `Reader.reads_record` — a record is its sections, and is read by
  them.
* `Record.readAll_eq_ok_iff_spelled` — reading an export.
* `Record.exists_readAll` — an export with some of its records left out.
-/

namespace TensorContraction

open Spelling Text

namespace Reader

variable {α β : Type} {ws rest : List Word} {P : Phrase α}

/-! ### Fields and tables -/

/-- The fields of a section, all of one kind. -/
theorem reads_fields {f : Word → Except Halt α} {W : String → α → Prop}
    (hf : ∀ w a, f w = .ok a ↔ W w.text a) (hW : ∀ w a, W w a → w.toList.head? ≠ some '[') :
    Reads (fields >>= each f) (List.Forall₂ W) AtSection := by
  intro ws as rest
  simp only [bind_eq_ok_iff, fields, takeWhile_eq_ok_iff, each_eq_ok_iff, Check.mapM_eq_ok_iff, hf]
  constructor
  · intro h
    obtain ⟨xs, mid, ⟨rfl, -, hrest⟩, hvalues, rfl⟩ := h
    exact ⟨xs, rfl, List.forall₂_map_left_iff.mpr hvalues, atSection_iff.mpr hrest⟩
  · intro h
    obtain ⟨taken, rfl, hvalues, hrest⟩ := h
    rw [List.forall₂_map_left_iff] at hvalues
    refine ⟨taken, rest, ⟨rfl, fun w hw => ?_, atSection_iff.mp hrest⟩, hvalues, rfl⟩
    obtain ⟨a, -, ha⟩ := Check.exists_right_of_forall₂ hvalues hw
    have htag := mt Word.isTag_iff.mp (hW _ _ ha)
    simpa using htag

theorem fields_map {width : Nat} (f : Word → String) (rows : List (Vector Word width)) :
    Columns.fields (rows.map (Vector.map f)) = (Columns.fields rows).map f := by
  simp [Columns.fields, List.map_flatMap, Function.comp_def]

theorem exists_row_of_mem_fields {width : Nat} {rows : List (Vector Word width)} {w : Word}
    (h : w ∈ Columns.fields rows) : ∃ fs ∈ rows, w ∈ fs := by
  simp only [Columns.fields, List.mem_flatMap, List.mem_map] at h
  obtain ⟨column, -, fs, hfs, rfl⟩ := h
  exact ⟨fs, hfs, Vector.getElem_mem column.isLt⟩

theorem reads_table {t : Tag} {width : Nat} {row : Vector Word width → Except Halt α}
    {Row : Vector String width → α → Prop} (hwidth : 0 < width)
    (hrow : ∀ fs a, row fs = .ok a ↔ Row (fs.map (·.text)) a)
    (hRow : ∀ fs a, Row fs a → ∀ w ∈ fs, w.toList.head? ≠ some '[') :
    Reads (table t width row) (Tagged t (TableWords Row)) AtSection := by
  refine reads_section t fun ws as rest => ?_
  simp only [bind_eq_ok_iff, fields, takeWhile_eq_ok_iff]
  constructor
  · intro h
    obtain ⟨xs, mid, ⟨rfl, -, hrest⟩, h⟩ := h
    cases hrows : Columns.rows? width xs with
    | none =>
      rw [hrows] at h
      cases h
    | some rows =>
      rw [hrows] at h
      obtain ⟨hvalues, rfl⟩ := each_eq_ok_iff.mp h
      rw [Columns.rows?_eq_some_iff hwidth] at hrows
      refine ⟨xs, rfl, ⟨rows.map (Vector.map (·.text)), ?_, ?_⟩, atSection_iff.mpr hrest⟩
      · rw [fields_map, hrows]
      · rw [List.forall₂_map_left_iff]
        exact (Check.mapM_eq_ok_iff.mp hvalues).imp fun fs a => (hrow fs a).mp
  · intro h
    obtain ⟨taken, rfl, ⟨texts, htexts, hvalues⟩, hrest⟩ := h
    have hdvd : width ∣ taken.length := by
      rw [← List.length_map (·.text), ← htexts]
      exact Columns.dvd_length_fields texts
    obtain ⟨rows, hrows⟩ := Columns.exists_rows?_iff.mpr hdvd
    have hfields := (Columns.rows?_eq_some_iff hwidth).mp hrows
    obtain rfl : rows.map (Vector.map (·.text)) = texts := by
      refine Columns.fields_inj ?_ (by rw [fields_map, hfields, htexts])
      have hlen := congrArg List.length htexts
      rw [← hfields, List.length_map, Columns.length_fields, Columns.length_fields] at hlen
      rw [List.length_map, Nat.eq_of_mul_eq_mul_left hwidth hlen]
    refine ⟨taken, rest, ⟨rfl, fun w hw => ?_, atSection_iff.mp hrest⟩, ?_⟩
    · obtain ⟨fs, hfs, hwfs⟩ := exists_row_of_mem_fields (hfields ▸ hw)
      obtain ⟨a, -, ha⟩ := Check.exists_right_of_forall₂ hvalues (List.mem_map_of_mem hfs)
      have htag := mt Word.isTag_iff.mp (hRow _ _ ha _ (Vector.mem_map.mpr ⟨w, hwfs, rfl⟩))
      simpa using htag
    · rw [hrows]
      refine each_eq_ok_iff.mpr ⟨Check.mapM_eq_ok_iff.mpr ?_, rfl⟩
      exact (List.forall₂_map_left_iff.mp hvalues).imp fun fs a => (hrow fs a).mpr

theorem vertexRow_eq_ok_iff {fs : Vector Word 6} {row : VertexRow} :
    vertexRow fs = .ok row ↔ VertexFields (fs.map (·.text)) row := by
  unfold vertexRow
  simp only [Check.bind_eq_ok_iff, Check.pure_eq_ok_iff, Word.integer_eq_ok_iff,
    Word.flag_eq_ok_iff]
  constructor
  · intro h
    obtain ⟨vertex, hvertex, role, hrole, space, hspace, external, hexternal, arc, harc, id, hid,
      rfl⟩ := h
    constructor <;> simpa [Vector.get]
  · intro h
    obtain ⟨hvertex, hrole, hspace, hexternal, harc, hid⟩ := h
    simp only [Vector.get, Vector.getElem_toArray, Vector.getElem_map] at *
    exact ⟨_, hvertex, _, hrole, _, hspace, _, hexternal, _, harc, _, hid, rfl⟩

theorem resultRow_eq_ok_iff {fs : Vector Word 5} {row : ResultRow} :
    resultRow fs = .ok row ↔ ResultFields (fs.map (·.text)) row := by
  unfold resultRow
  simp only [Check.bind_eq_ok_iff, Check.pure_eq_ok_iff, Word.integer_eq_ok_iff]
  constructor
  · intro h
    obtain ⟨vertex, hvertex, role, hrole, space, hspace, duplicate, hduplicate, id, hid, rfl⟩ := h
    constructor <;> simpa [Vector.get]
  · intro h
    obtain ⟨hvertex, hrole, hspace, hduplicate, hid⟩ := h
    simp only [Vector.get, Vector.getElem_toArray, Vector.getElem_map] at *
    exact ⟨_, hvertex, _, hrole, _, hspace, _, hduplicate, _, hid, rfl⟩

/-! ### Items -/

theorem itemsUpTo_nil (item : Reader α) (n : Nat) : itemsUpTo item n [] = .ok ([], []) := by
  cases n <;> rfl

theorem itemsUpTo_of_isTag (item : Reader α) (n : Nat) {w : Word} (h : w.isTag = true) :
    itemsUpTo item (n + 1) (w :: ws) = .ok ([], w :: ws) := by
  rw [itemsUpTo, if_pos h]

theorem itemsUpTo_of_not_isTag (item : Reader α) (n : Nat) {w : Word} (h : ¬ w.isTag = true) :
    itemsUpTo item (n + 1) (w :: ws) =
      (item >>= fun a => itemsUpTo item n >>= fun as => pure (a :: as)) (w :: ws) := by
  rw [itemsUpTo, if_neg h]

section Items

variable {item : Reader α} {us : List String} {as : List α}

/-- Items open with words of their own, so none of them takes no word. -/
theorem eq_nil_of_several (hfirst : Named P)
    (h : Several P [] as) : as = [] := by
  generalize hus : ([] : List String) = us at h
  cases h with
  | nil => rfl
  | cons head _ =>
    obtain ⟨w, vs, rfl, -⟩ := hfirst _ _ head
    simp at hus

/-- Where an item ends, another one or a section opens. -/
theorem pastSignatures_append (hfirst : Named P)
    {rest : List String} (h : Several P us as) (hrest : AtSection rest) :
    PastSignatures (us ++ rest) := by
  cases h with
  | nil => exact hrest.pastSignatures
  | cons head _ =>
    obtain ⟨w, vs, rfl, hname⟩ := hfirst _ _ head
    intro v hv
    obtain rfl : w = v := by simpa using hv
    exact hname.2

/-- Where a section opens there is no item to take. -/
theorem nothing_eq_iff (hfirst : Named P)
    (hws : AtSection (ws.map (·.text))) :
    (Except.ok ([], ws) : Except Halt (List α × List Word)) = .ok (as, rest) ↔
      ∃ taken, ws = taken ++ rest ∧ Several P (taken.map (·.text)) as ∧
        AtSection (rest.map (·.text)) := by
  rw [Except.ok.injEq, Prod.mk.injEq]
  constructor
  · rintro ⟨rfl, rfl⟩
    exact ⟨[], rfl, .nil, hws⟩
  · intro h
    obtain ⟨taken, rfl, hitems, -⟩ := h
    cases taken with
    | nil => exact ⟨(eq_nil_of_several hfirst hitems).symm, rfl⟩
    | cons w taken =>
      generalize htexts : (w :: taken).map (·.text) = texts at hitems
      cases hitems with
      | nil => simp at htexts
      | cons head _ =>
        obtain ⟨v, vs, rfl, hname⟩ := hfirst _ _ head
        obtain ⟨rfl, -⟩ := List.cons.inj htexts
        exact absurd (hws w.text rfl) hname.1

/-- Where no section opens there is an item to take, before any others. -/
theorem several_iff_of_not_isTag {w : Word} (hw : ¬ w.isTag = true) :
    (∃ taken, w :: ws = taken ++ rest ∧ Several P (taken.map (·.text)) as ∧
        AtSection (rest.map (·.text))) ↔
      ∃ us taken a as', w :: ws = us ++ (taken ++ rest) ∧ P (us.map (·.text)) a ∧
        Several P (taken.map (·.text)) as' ∧ AtSection (rest.map (·.text)) ∧ a :: as' = as := by
  constructor
  · intro h
    obtain ⟨taken, hws, hitems, hrest⟩ := h
    generalize htexts : taken.map (·.text) = texts at hitems
    cases hitems with
    | nil =>
      obtain rfl := List.map_eq_nil_iff.mp htexts
      obtain rfl : w :: ws = rest := hws
      exact absurd (Word.isTag_iff.mpr (hrest w.text rfl)) hw
    | cons head tail =>
      obtain ⟨us, taken, rfl, rfl, rfl⟩ := List.map_eq_append_iff.mp htexts
      exact ⟨us, taken, _, _, by rw [hws, List.append_assoc], head, tail, hrest, rfl⟩
  · intro h
    obtain ⟨us, taken, a, as', hws, head, tail, hrest, rfl⟩ := h
    refine ⟨us ++ taken, by rw [hws, List.append_assoc], ?_, hrest⟩
    rw [List.map_append]
    exact .cons head tail

/-- The items up to the next section, for as many as there can be. -/
theorem itemsUpTo_eq_ok_iff (hitem : Reads item P PastSignatures)
    (hfirst : Named P) {n : Nat} (hn : ws.length ≤ n) :
    itemsUpTo item n ws = .ok (as, rest) ↔ ∃ taken, ws = taken ++ rest ∧
      Several P (taken.map (·.text)) as ∧ AtSection (rest.map (·.text)) := by
  have hend : AtSection (([] : List Word).map (·.text)) := by simp [AtSection]
  induction n generalizing ws as with
  | zero =>
    obtain rfl := List.length_eq_zero_iff.mp (Nat.le_zero.mp hn)
    rw [itemsUpTo_nil, nothing_eq_iff hfirst hend]
  | succ n ih =>
    cases ws with
    | nil => rw [itemsUpTo_nil, nothing_eq_iff hfirst hend]
    | cons w ws =>
      by_cases hw : w.isTag = true
      · rw [itemsUpTo_of_isTag item n hw]
        refine nothing_eq_iff hfirst (atSection_iff.mpr fun v hv => ?_)
        obtain rfl : w = v := by simpa using hv
        simp [hw]
      · rw [itemsUpTo_of_not_isTag item n hw, several_iff_of_not_isTag hw]
        simp only [bind_eq_ok_iff, pure_eq_ok_iff, hitem _ _ _]
        -- what follows an item is shorter than the words with it
        have hshort {us mid : List Word} {a : α} (hws : w :: ws = us ++ mid)
            (hus : P (us.map (·.text)) a) : mid.length ≤ n := by
          obtain ⟨v, vs, htexts, -⟩ := hfirst _ _ hus
          have hlen := congrArg List.length hws
          have hpos := congrArg List.length htexts
          simp only [List.length_cons, List.length_append, List.length_map] at hlen hpos hn
          omega
        constructor
        · intro h
          obtain ⟨a, mid, ⟨us, hws, hus, -⟩, as', _, hitems, rfl, rfl⟩ := h
          obtain ⟨taken, rfl, htaken, hrest⟩ := (ih (hshort hws hus)).mp hitems
          exact ⟨us, taken, a, as', hws, hus, htaken, hrest, rfl⟩
        · intro h
          obtain ⟨us, taken, a, as', hws, hus, htaken, hrest, rfl⟩ := h
          refine ⟨a, taken ++ rest, ⟨us, hws, hus, ?_⟩, as', rest, ?_, rfl, rfl⟩
          · rw [List.map_append]
            exact pastSignatures_append hfirst htaken hrest
          · exact (ih (hshort hws hus)).mpr ⟨taken, rfl, htaken, hrest⟩

end Items

theorem reads_items {item : Reader α} (hitem : Reads item P PastSignatures)
    (hfirst : Named P) :
    Reads (items item) (Several P) AtSection := by
  intro ws as rest
  exact itemsUpTo_eq_ok_iff hitem hfirst (Nat.le_refl _)

theorem reads_operators : Reads (items operator) (Several OperatorWords) AtSection :=
  reads_items reads_operator operatorWords_named

theorem reads_arcs : Reads (items arc) (Several ArcWords) AtSection :=
  reads_items reads_arc arcWords_named

/-! ### Sections of a record -/

/-- The factor of a record. -/
def factor : Reader Factor := return ⟨← decimal, ← decimal, ← decimal⟩

/-- The words of a factor. -/
def FactorWords : Phrase Factor := fun ws f => ∃ external sign magnitude,
  ws = [external, sign, magnitude] ∧ Decimal external f.external ∧ Decimal sign f.sign ∧
    Decimal magnitude f.magnitude

/-- Two counts of a record. -/
def counts : Reader (Int × Int) := return (← integer, ← integer)

/-- The words of two counts. -/
def CountWords : Phrase (Int × Int) := fun ws c => ∃ v w,
  ws = [v, w] ∧ Integer v c.1 ∧ Integer w c.2

theorem reads_factor : Reads factor FactorWords Anything := by
  refine (reads_decimal.then fun external => reads_decimal.then fun sign =>
    reads_decimal.map fun magnitude => Factor.mk external sign magnitude).congr fun ws f => ?_
  constructor
  · intro h
    obtain ⟨_, _, external, rfl, ⟨v, rfl, hv⟩, h⟩ := h
    obtain ⟨_, _, sign, rfl, ⟨w, rfl, hw⟩, h⟩ := h
    obtain ⟨_, _, magnitude, rfl, ⟨x, rfl, hx⟩, rfl, rfl⟩ := h
    exact ⟨v, w, x, rfl, hv, hw, hx⟩
  · intro h
    obtain ⟨v, w, x, rfl, hv, hw, hx⟩ := h
    exact ⟨[v], [w, x], _, rfl, ⟨v, rfl, hv⟩, [w], [x], _, rfl, ⟨w, rfl, hw⟩,
      [x], [], _, rfl, ⟨x, rfl, hx⟩, rfl, rfl⟩

theorem reads_counts : Reads counts CountWords Anything := by
  refine (reads_integer.then fun first =>
    reads_integer.map fun second => (first, second)).congr fun ws c => ?_
  constructor
  · intro h
    obtain ⟨_, _, first, rfl, ⟨v, rfl, hv⟩, h⟩ := h
    obtain ⟨_, _, second, rfl, ⟨w, rfl, hw⟩, rfl, rfl⟩ := h
    exact ⟨v, w, rfl, hv, hw⟩
  · intro h
    obtain ⟨v, w, rfl, hv, hw⟩ := h
    exact ⟨[v], [w], _, rfl, ⟨v, rfl, hv⟩, [w], [], _, rfl, ⟨w, rfl, hw⟩, rfl, rfl⟩

theorem reads_superVertices : Reads (fields >>= each Word.integer) (List.Forall₂ Integer)
    AtSection :=
  reads_fields (fun _ _ => Word.integer_eq_ok_iff) fun _ _ h => h.head?_ne (.inl rfl)

theorem reads_vertexTable : Reads (table .vertexTable 6 vertexRow)
    (Tagged .vertexTable (TableWords VertexFields)) AtSection :=
  reads_table (by decide) (fun _ _ => vertexRow_eq_ok_iff) fun _ _ h => h.head?_ne

theorem reads_resultTable : Reads (table .resultTable 5 resultRow)
    (Tagged .resultTable (TableWords ResultFields)) AtSection :=
  reads_table (by decide) (fun _ _ => resultRow_eq_ok_iff) fun _ _ h => h.head?_ne

/-! ### Records -/

/-- The sections of a record, one after another. -/
def RecordSections : Phrase Record :=
  Then (Tagged .contraction NumberWords) fun id =>
  Then (Tagged .result OperatorWords) fun result =>
  Then (Tagged .factor FactorWords) fun factor =>
  Then (Tagged .vertexCounts CountWords) fun vertexCounts =>
  Then (Tagged .superVertices (List.Forall₂ Integer)) fun superVertices =>
  Then (Tagged .arcCounts CountWords) fun arcCounts =>
  Then (Tagged .vertices (Several OperatorWords)) fun vertices =>
  Then (Tagged .arcs (Several ArcWords)) fun arcs =>
  Then (Tagged .externalArcs (Several ArcWords)) fun externalArcs =>
  Then (Tagged .vertexTable (TableWords VertexFields)) fun vertexRows =>
  Then (Tagged .resultTable (TableWords ResultFields)) fun resultRows =>
  Value ⟨id, result, factor, vertexCounts.1, vertexCounts.2, superVertices, arcCounts.1,
    arcCounts.2, vertices, arcs, externalArcs, vertexRows, resultRows⟩

/-- A section and what follows it. -/
theorem then_section {t : Tag} {Q : α → Phrase β} {us vs : List String} {a : α} {b : β}
    (hus : P us a) (hvs : Q a vs b) : Then (Tagged t P) Q (t.text :: us ++ vs) b :=
  ⟨_, vs, a, rfl, ⟨us, rfl, hus⟩, hvs⟩

theorem exists_of_then_section {t : Tag} {Q : α → Phrase β} {us : List String} {b : β}
    (h : Then (Tagged t P) Q us b) :
    ∃ taken vs a, us = t.text :: taken ++ vs ∧ P taken a ∧ Q a vs b := by
  obtain ⟨_, vs, a, rfl, ⟨taken, rfl, htaken⟩, hvs⟩ := h
  exact ⟨taken, vs, a, rfl, htaken, hvs⟩

theorem recordSections_iff {us : List String} {r : Record} :
    RecordSections us r ↔ RecordWords us r := by
  constructor
  · intro h
    obtain ⟨number, _, id, rfl, hnumber, h⟩ := exists_of_then_section h
    obtain ⟨resultWords, _, result, rfl, hresult, h⟩ := exists_of_then_section h
    obtain ⟨_, _, factor, rfl, hfactor, h⟩ := exists_of_then_section h
    obtain ⟨_, _, vertexCounts, rfl, hvertexCounts, h⟩ := exists_of_then_section h
    obtain ⟨superWords, _, superVertices, rfl, hsupers, h⟩ := exists_of_then_section h
    obtain ⟨_, _, arcCounts, rfl, harcCounts, h⟩ := exists_of_then_section h
    obtain ⟨vertexWords, _, vertices, rfl, hvertices, h⟩ := exists_of_then_section h
    obtain ⟨arcWords, _, arcs, rfl, harcs, h⟩ := exists_of_then_section h
    obtain ⟨externalArcWords, _, externalArcs, rfl, hexternalArcs, h⟩ := exists_of_then_section h
    obtain ⟨vertexTable, _, vertexRows, rfl, hvertexRows, h⟩ := exists_of_then_section h
    obtain ⟨resultTable, _, resultRows, rfl, hresultRows, rfl, rfl⟩ := exists_of_then_section h
    obtain ⟨external, sign, magnitude, rfl, hexternal, hsign, hmagnitude⟩ := hfactor
    obtain ⟨vertexCount, operatorCount, rfl, hvertexCount, hoperatorCount⟩ := hvertexCounts
    obtain ⟨arcCount, externalArcCount, rfl, harcCount, hexternalArcCount⟩ := harcCounts
    have hwords := RecordWords.sections (r := ⟨id, result, factor, vertexCounts.1,
      vertexCounts.2, superVertices, arcCounts.1, arcCounts.2, vertices, arcs, externalArcs,
      vertexRows, resultRows⟩) hnumber hresult hexternal hsign hmagnitude
      hvertexCount hoperatorCount hsupers harcCount hexternalArcCount hvertices harcs
      hexternalArcs hvertexRows hresultRows
    simpa [Tag.text] using hwords
  · intro h
    cases h with
    | sections hnumber hresult hexternal hsign hmagnitude hvertexCount hoperatorCount hsupers
        harcCount hexternalArcCount hvertices harcs hexternalArcs hvertexRows hresultRows =>
      have hfactor : FactorWords _ r.factor := ⟨_, _, _, rfl, hexternal, hsign, hmagnitude⟩
      have hvertexCounts : CountWords _ (r.vertexCount, r.operatorCount) :=
        ⟨_, _, rfl, hvertexCount, hoperatorCount⟩
      have harcCounts : CountWords _ (r.arcCount, r.externalArcCount) :=
        ⟨_, _, rfl, harcCount, hexternalArcCount⟩
      have hsections : RecordSections _ r :=
        then_section hnumber <| then_section hresult <| then_section hfactor <|
        then_section hvertexCounts <| then_section hsupers <| then_section harcCounts <|
        then_section hvertices <| then_section harcs <| then_section hexternalArcs <|
        then_section hvertexRows <| then_section hresultRows ⟨rfl, rfl⟩
      simpa [Tag.text] using hsections

theorem reads_recordSections : Reads record RecordSections AtSection := by
  have hsignatures (ws : List String) (h : AtSection ws) : PastSignatures ws := h.pastSignatures
  have hsection (ws : List String) (h : AtSection ws) : AtSection ws := h
  have hsections := (reads_section .contraction reads_number).then fun id =>
    (reads_section .result reads_operator).thenSection hsignatures fun result =>
    (reads_section .factor reads_factor).then fun factor =>
    (reads_section .vertexCounts reads_counts).then fun vertexCounts =>
    (reads_section .superVertices reads_superVertices).thenSection hsection fun superVertices =>
    (reads_section .arcCounts reads_counts).then fun arcCounts =>
    (reads_section .vertices reads_operators).thenSection hsection fun vertices =>
    (reads_section .arcs reads_arcs).thenSection hsection fun arcs =>
    (reads_section .externalArcs reads_arcs).thenSection hsection fun externalArcs =>
    reads_vertexTable.thenSection hsection fun vertexRows =>
    reads_resultTable.map fun resultRows => Record.mk id result factor vertexCounts.1
      vertexCounts.2 superVertices arcCounts.1 arcCounts.2 vertices arcs externalArcs vertexRows
      resultRows
  simpa only [record, RecordSections, factor, counts, bind_assoc, pure_bind] using hsections

theorem reads_record : Reads record RecordWords AtSection :=
  reads_recordSections.congr fun _ _ => recordSections_iff

end Reader

/-! ### Exports -/

namespace Reading

variable {ws rest : List Word} {rs : List Record}

theorem exists_eq_cons_of_recordWords {us : List String} {r : Record} (h : RecordWords us r) :
    ∃ vs, us = Tag.contraction.text :: vs := by
  cases h
  exact ⟨_, rfl⟩

/-- An export opens with its final word, and then it has no record, or with that of a record. -/
theorem exportWords_cons_iff {w : String} {us : List String} :
    ExportWords (w :: us) rs ↔ (w = Tag.finish.text ∧ us = [] ∧ rs = []) ∨
      w = Tag.contraction.text ∧ ∃ r rs' vs body, w :: us = vs ++ body ∧ RecordWords vs r ∧
        ExportWords body rs' ∧ r :: rs' = rs := by
  constructor
  · rintro ⟨body, hrecords, hws⟩
    cases hrecords with
    | nil =>
      obtain ⟨rfl, rfl⟩ := List.cons.inj hws
      exact .inl ⟨rfl, rfl, rfl⟩
    | @cons vs body r rs' head tail =>
      obtain ⟨vs', rfl⟩ := exists_eq_cons_of_recordWords head
      refine .inr ⟨(List.cons.inj hws).1, r, rs', _, body ++ ["[END]"], ?_, head,
        ⟨body, tail, rfl⟩, rfl⟩
      rw [hws, List.append_assoc]
  · rintro (⟨rfl, rfl, rfl⟩ | ⟨rfl, r, rs', vs, _, hws, hr, ⟨body, hrecords, rfl⟩, rfl⟩)
    · exact ⟨[], .nil, rfl⟩
    · exact ⟨vs ++ body, .cons hr hrecords, by rw [hws, List.append_assoc]⟩

theorem atSection_of_exportWords {us : List String} (h : ExportWords us rs) : AtSection us := by
  cases us with
  | nil => simp [AtSection]
  | cons w us =>
    rcases exportWords_cons_iff.mp h with ⟨rfl, -⟩ | ⟨rfl, -⟩
    · exact Tag.atSection .finish us
    · exact Tag.atSection .contraction us

theorem not_exportWords_nil : ¬ ExportWords [] rs := by
  rintro ⟨body, -, hws⟩
  simp at hws

theorem scan_of_finish {n : Nat} {w : Word} (hw : w.text = Tag.finish.text) :
    scan (n + 1) (w :: ws) = (rs, none) ↔ ws = [] ∧ rs = [] := by
  unfold scan
  rw [if_pos hw]
  cases ws with
  | nil => simp [eq_comm]
  | cons extra ws => simp

theorem scan_of_record {n : Nat} {w : Word} (hw : w.text = Tag.contraction.text) :
    scan (n + 1) (w :: ws) = (rs, none) ↔ ∃ r rs' rest, Reader.record (w :: ws) = .ok (r, rest) ∧
      scan n rest = (rs', none) ∧ r :: rs' = rs := by
  have hne : ¬ w.text = Tag.finish.text := by
    rw [hw]
    decide
  rw [scan.eq_def]
  simp only [if_neg hne, if_pos hw]
  cases Reader.record (w :: ws) with
  | error halt => simp
  | ok p =>
    obtain ⟨r, rest⟩ := p
    constructor
    · intro h
      obtain ⟨hrecords, hhalt⟩ := Prod.ext_iff.mp h
      exact ⟨r, (scan n rest).1, rest, rfl, Prod.ext rfl hhalt, hrecords⟩
    · rintro ⟨r', rs', rest', hr, hscan, rfl⟩
      obtain ⟨rfl, rfl⟩ := Prod.ext_iff.mp (Except.ok.inj hr)
      simp [hscan]

theorem scan_of_neither {n : Nat} {w : Word} (hfinish : ¬ w.text = Tag.finish.text)
    (hrecord : ¬ w.text = Tag.contraction.text) : scan (n + 1) (w :: ws) ≠ (rs, none) := by
  unfold scan
  rw [if_neg hfinish, if_neg hrecord]
  simp

/-- **Records are read to the end exactly if the words are those of an export.** -/
theorem scan_eq_iff {n : Nat} (hn : ws.length ≤ n) :
    scan n ws = (rs, none) ↔ ExportWords (ws.map (·.text)) rs := by
  induction n generalizing ws rs with
  | zero =>
    obtain rfl := List.length_eq_zero_iff.mp (Nat.le_zero.mp hn)
    simp [scan, not_exportWords_nil]
  | succ n ih =>
    cases ws with
    | nil => simp [scan, not_exportWords_nil]
    | cons w ws =>
      rw [List.map_cons, exportWords_cons_iff]
      by_cases hfinish : w.text = Tag.finish.text
      · have hne : Tag.finish.text ≠ Tag.contraction.text := by decide
        rw [scan_of_finish hfinish]
        simp [hfinish, hne]
      · by_cases hrecord : w.text = Tag.contraction.text
        · rw [scan_of_record hrecord, or_iff_right fun h => hfinish h.1, and_iff_right hrecord]
          simp only [Reader.reads_record _ _ _]
          -- what follows a record is shorter than the words with it
          have hshort {us rest : List Word} {r : Record} (hws : w :: ws = us ++ rest)
              (hus : RecordWords (us.map (·.text)) r) : rest.length ≤ n := by
            obtain ⟨vs, htexts⟩ := exists_eq_cons_of_recordWords hus
            have hlen := congrArg List.length hws
            have hpos := congrArg List.length htexts
            simp only [List.length_cons, List.length_append, List.length_map] at hlen hpos hn
            omega
          constructor
          · intro h
            obtain ⟨r, rs', rest, ⟨us, hws, hus, -⟩, hrest, rfl⟩ := h
            refine ⟨r, rs', _, rest.map (·.text), ?_, hus, (ih (hshort hws hus)).mp hrest, rfl⟩
            exact (congrArg (List.map (·.text)) hws).trans List.map_append
          · intro h
            obtain ⟨r, rs', vs, body, htexts, hvs, hbody, rfl⟩ := h
            have htaken : (w :: ws).map (·.text) = vs ++ body := htexts
            obtain ⟨us, rest, hws, rfl, rfl⟩ := List.map_eq_append_iff.mp htaken
            exact ⟨r, rs', rest, ⟨us, hws, hvs, atSection_of_exportWords hbody⟩,
              (ih (hshort hws hvs)).mpr hbody, rfl⟩
        · simp [hfinish, hrecord, scan_of_neither hfinish hrecord]

end Reading

/-- Reading an export succeeds exactly if its words are scanned to the end. -/
theorem Record.readAll_eq_ok_iff_scan {text : String} {records : List Record} :
    readAll text = .ok records ↔
      Reading.scan (words text).length (words text) = (records, none) := by
  rw [readAll, Reading.ofText, Reading.ofWords]
  rcases Reading.scan (words text).length (words text) with ⟨rs, halt?⟩
  cases halt? with
  | none => simp [Reading.toExcept]
  | some halt => simp [Reading.toExcept]

/-- **Reading an export inverts spelling its records.** -/
theorem Record.readAll_eq_ok_iff_spelled {text : String} {records : List Record} :
    readAll text = .ok records ↔ ExportWords (runs text) records := by
  rw [readAll_eq_ok_iff_scan, Reading.scan_eq_iff (Nat.le_refl _), map_text_words]

/-- **Some of the records of an export are those of another export.** -/
theorem Record.exists_readAll {text : String} {records kept : List Record}
    (h : readAll text = .ok records) (hkept : kept.Sublist records) :
    ∃ other, readAll other = .ok kept := by
  simp only [readAll_eq_ok_iff_scan, Reading.scan_eq_iff (Nat.le_refl _), map_text_words] at h ⊢
  obtain ⟨body, hbody, hwords⟩ := h
  obtain ⟨body', hsub, hbody'⟩ := hbody.sublist hkept
  -- the words of the records that are left stand in the export, so a text can have them
  refine ⟨spaced (body' ++ ["[END]"]), body', hbody', runs_spaced fun w hw => ?_⟩
  have hmem : w ∈ runs text := by
    rw [hwords]
    exact (hsub.append_right _).subset hw
  exact not_isBlank_of_mem_runs hmem

end TensorContraction
