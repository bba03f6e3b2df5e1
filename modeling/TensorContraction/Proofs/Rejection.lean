import TensorContraction.Proofs.Acceptance
import TensorContraction.Proofs.Shortage

/-!
# What rejections say about a record

A record that is rejected breaks the rule that is reported, and the numbers in the report are
those of the record: positions count from one, and values are as the record writes them.  The
checks work on numbers that have been moved to count from zero and on signatures that have been
exchanged.  So what a rule says is stated on the record alone, and each check is shown to fail
only for such rules.  There are no others to be kept: a record that breaks none is accepted.

## Main definitions

* `Record.values` — the numbers that a record writes in the fields of a kind.
* `Record.declared`, `Record.actual` — how many things a record declares and has.
* `Record.Asks` — the signature of a place and the spaces that rows write for it.
* `Record.Breaks` — the rules that a record breaks.

## Main results

* `Record.failsBy_string` — the indices of a place cannot be arranged.
* `Record.failsBy_tensor` — the vertices of a super-vertex cannot be joined.
* `Contraction.breaks_of_ofRecord` — a rejected record breaks the rule that is reported.
* `Record.exists_breaks_iff` — the records that break a rule are those that are rejected.
-/

namespace TensorContraction

open Check (FailsBy failsBy_ok failsBy_error failsBy_mapM)

theorem Space.ofNumber?_eq_none_iff {n : Nat} : ofNumber? n = none ↔ 3 ≤ n := by
  unfold ofNumber?
  split <;> grind

theorem Role.ofNumber?_eq_none_iff {n : Nat} : ofNumber? n = none ↔ 2 ≤ n := by
  unfold ofNumber?
  split <;> grind

/-- Exchanging the strings of signatures leaves as many places. -/
theorem Operator.length_entries (o : Operator) :
    (o.signatures.flatMap (·.entries)).length = (o.slots.flatMap (·.entries)).length := by
  have hseen (s : Signature) : (s.seen o.transposed).entries.length = s.entries.length := by
    cases o.transposed
    · rfl
    · exact s.entries_swap_perm.length_eq
  rw [Operator.signatures, List.flatMap_map, List.length_flatMap, List.length_flatMap]
  simp only [hseen]

namespace Record

/-! ### Rules on the record alone -/

/-- The numbers that a record writes in the fields of a kind. -/
def values (r : Record) : Field → List Int
  | .contractionId => [r.id]
  | .superVertexId => r.superVertices
  | .arcVertex => (r.arcs ++ r.externalArcs).flatMap fun a => [a.first, a.second]
  | .arcIndex => r.vertexRows.map (·.arc)
  | .indexId => r.vertexRows.map (·.id) ++ r.resultRows.map (·.id)
  | .indexSpace => r.vertexRows.map (·.space) ++ r.resultRows.map (·.space)
  | .vertexId => r.vertexRows.map (·.vertex) ++ r.resultRows.map (·.vertex)
  | .indexType => r.vertexRows.map (·.role) ++ r.resultRows.map (·.role)

/-- How many things a record declares.  Of indices it declares as many as its signatures have
spaces. -/
def declared (r : Record) : Quantity → Int
  | .vertex => r.vertexCount
  | .superVertexAssociation => r.vertexCount
  | .arc => r.arcCount
  | .externalArc => r.externalArcCount
  | .vertexIndex => ((r.vertices.flatMap (·.slots)).flatMap (·.entries)).length
  | .operator => r.operatorCount
  | .resultIndex => (r.result.slots.flatMap (·.entries)).length

/-- How many things a record has. -/
def actual (r : Record) : Quantity → Nat
  | .vertex => r.vertices.length
  | .superVertexAssociation => r.superVertices.length
  | .arc => r.arcs.length
  | .externalArc => r.externalArcs.length
  | .vertexIndex => r.vertexRows.length
  | .operator => r.superVertices.toFinset.card
  | .resultIndex => r.resultRows.length

/-- The places of a record that indices are on, each with its signature and with the spaces that
rows write for its indices of a role. -/
inductive Asks (r : Record) : Nat → Signature → (Role → List Int) → Prop
  /-- A vertex, whose operator has one signature. -/
  | vertex {place : Nat} {o : Operator} {signature : Signature}
    (ho : r.vertices[place]? = some o) (hsignature : o.signatures = [signature]) :
    Asks r place signature (r.vertexSpaces place)
  /-- A slot of the result. -/
  | slot {place : Nat} {signature : Signature}
    (hsignature : r.result.signatures[place]? = some signature) :
    Asks r place signature (r.resultSpaces place)

/-- The rules that a record breaks, as they are reported. -/
inductive Breaks (r : Record) : Violation → Prop
  /-- A number that counts from one is less. -/
  | notPositive {field : Field} {value : Int} (hvalue : value ∈ r.values field)
    (h : value ≤ 0) : Breaks r (.notPositive field value)
  /-- There are three spaces. -/
  | unknownSpace {value : Int} (hvalue : value ∈ r.values .indexSpace) (h : 3 < value) :
    Breaks r (.unknownSpace value)
  /-- There are two roles. -/
  | unknownRole {value : Int} (hvalue : value ∈ r.values .indexType) (h : 2 < value) :
    Breaks r (.unknownRole value)
  /-- There are more or fewer things than declared. -/
  | countMismatch {quantity : Quantity} (h : r.declared quantity ≠ r.actual quantity) :
    Breaks r (.countMismatch quantity (r.declared quantity) (r.actual quantity))
  /-- A row of the result names two slots. -/
  | resultVertexMismatch {position : Nat} {row : ResultRow}
    (hrow : r.resultRows[position]? = some row) (h : row.vertex ≠ row.duplicate) :
    Breaks r (.resultVertexMismatch (position + 1) row.vertex row.duplicate)
  /-- A vertex has no signature or several. -/
  | slotCount {place : Nat} {o : Operator} (ho : r.vertices[place]? = some o)
    (h : o.slots.length ≠ 1) : Breaks r (.slotCount (place + 1) o.slots.length)
  /-- Two vertices of one super-vertex have different names. -/
  | mixedOperators {i j : Nat} {number : Int} {o p : Operator}
    (hi : r.superVertices[i]? = some number) (hj : r.superVertices[j]? = some number)
    (ho : r.vertices[i]? = some o) (hp : r.vertices[j]? = some p) (h : o.name ≠ p.name) :
    Breaks r (.mixedOperators o.name p.name)
  /-- A place has more or fewer indices of a role than its signature has spaces. -/
  | signatureMismatch {place : Nat} {signature : Signature} {written : Role → List Int}
    {role : Role} (hplace : r.Asks place signature written)
    (h : (signature.on role).length ≠ (written role).length) :
    Breaks r (.signatureMismatch (place + 1) role (signature.on role).length (written role).length)
  /-- A place has as many indices of a role as its signature has spaces, but at some position
  the signature has asked for a space more often than there are such indices.  This is the first
  position of the kind. -/
  | noIndexOfSpace {place : Nat} {signature : Signature} {written : Role → List Int}
    {role : Role} {position : Nat} {space : Space} (hplace : r.Asks place signature written)
    (hlength : (signature.on role).length = (written role).length)
    (hasked : (signature.on role)[position]? = some space)
    (hshort : (written role).count space.code <
      ((signature.on role).take (position + 1)).count space)
    (hfirst : ∀ p < position, ∀ s, (signature.on role)[p]? = some s →
      ((signature.on role).take (p + 1)).count s ≤ (written role).count s.code) :
    Breaks r (.noIndexOfSpace (place + 1) role space (position + 1))

variable {r : Record}

/-! ### Numbers and rows -/

theorem failsBy_fromOne {field : Field} {value : Int} (hvalue : value ∈ r.values field) :
    FailsBy r.Breaks (fromOne field value) := by
  unfold fromOne
  split
  · exact failsBy_ok _
  · next h => exact failsBy_error (.notPositive hvalue (by omega))

theorem failsBy_checkCount (quantity : Quantity) {declared : Int} {actual : Nat}
    (hdeclared : declared = r.declared quantity) (hactual : actual = r.actual quantity) :
    FailsBy r.Breaks (checkCount quantity declared actual) := by
  subst hdeclared hactual
  unfold checkCount
  split
  · exact failsBy_ok ()
  · next h => exact failsBy_error (.countMismatch h)

theorem failsBy_spaceOf {value : Int} (hvalue : value ∈ r.values .indexSpace) :
    FailsBy r.Breaks (spaceOf value) := by
  refine (failsBy_fromOne hvalue).bind fun n hn => ?_
  split
  · exact failsBy_ok _
  · next hnone =>
    have hle := Space.ofNumber?_eq_none_iff.mp hnone
    rw [fromOne_eq_ok_iff] at hn
    exact failsBy_error (.unknownSpace hvalue (by omega))

theorem failsBy_roleOf {value : Int} (hvalue : value ∈ r.values .indexType) :
    FailsBy r.Breaks (roleOf value) := by
  refine (failsBy_fromOne hvalue).bind fun n hn => ?_
  split
  · exact failsBy_ok _
  · next hnone =>
    have hle := Role.ofNumber?_eq_none_iff.mp hnone
    rw [fromOne_eq_ok_iff] at hn
    exact failsBy_error (.unknownRole hvalue (by omega))

theorem failsBy_arcOf {a : Arc Int} (ha : a ∈ r.arcs ++ r.externalArcs) :
    FailsBy r.Breaks (arcOf a) := by
  have hend (n : Int) (hn : n ∈ [a.first, a.second]) : n ∈ r.values .arcVertex :=
    List.mem_flatMap.mpr ⟨a, ha, hn⟩
  exact (failsBy_fromOne (hend _ (by simp))).bind fun _ _ =>
    (failsBy_fromOne (hend _ (by simp))).bind fun _ _ => failsBy_ok _

/-- Both kinds of rows end in the same four numbers. -/
theorem failsBy_index {id space vertex role : Int} (hid : id ∈ r.values .indexId)
    (hspace : space ∈ r.values .indexSpace) (hvertex : vertex ∈ r.values .vertexId)
    (hrole : role ∈ r.values .indexType) :
    FailsBy r.Breaks (do return ⟨← fromOne .indexId id, ← spaceOf space,
      ← fromOne .vertexId vertex, ← roleOf role⟩ : Except Violation Index) :=
  (failsBy_fromOne hid).bind fun _ _ => (failsBy_spaceOf hspace).bind fun _ _ =>
  (failsBy_fromOne hvertex).bind fun _ _ => (failsBy_roleOf hrole).bind fun _ _ => failsBy_ok _

theorem failsBy_vertexIndex {row : VertexRow} (hrow : row ∈ r.vertexRows) :
    FailsBy r.Breaks (vertexIndex row) := by
  refine (failsBy_fromOne (List.mem_map_of_mem hrow)).bind fun _ _ => ?_
  exact failsBy_index (List.mem_append_left _ (List.mem_map_of_mem hrow))
    (List.mem_append_left _ (List.mem_map_of_mem hrow))
    (List.mem_append_left _ (List.mem_map_of_mem hrow))
    (List.mem_append_left _ (List.mem_map_of_mem hrow))

theorem failsBy_externalIndex {position : Nat} {row : ResultRow}
    (hrow : r.resultRows[position]? = some row) :
    FailsBy r.Breaks (externalIndex position row) := by
  unfold externalIndex
  split
  · next h => exact failsBy_error (.resultVertexMismatch hrow h)
  · have hmem := List.mem_of_getElem? hrow
    exact failsBy_index (List.mem_append_right _ (List.mem_map_of_mem hmem))
      (List.mem_append_right _ (List.mem_map_of_mem hmem))
      (List.mem_append_right _ (List.mem_map_of_mem hmem))
      (List.mem_append_right _ (List.mem_map_of_mem hmem))

theorem failsBy_ofOperator {place superVertex : Nat} {o : Operator}
    (ho : r.vertices[place]? = some o) :
    FailsBy r.Breaks (Vertex.ofOperator place superVertex o) := by
  unfold Vertex.ofOperator
  split
  · exact failsBy_ok _
  · next hslots =>
    refine failsBy_error (.slotCount ho fun hone => ?_)
    obtain ⟨slot, hslot⟩ := List.length_eq_one_iff.mp hone
    exact hslots slot hslot

/-! ### Places -/

/-- What a signature asks for at a place cannot be found in a pool that holds what rows write for
the place. -/
theorem failsBy_string {place : Nat} {signature : Signature} {written : Role → List Int}
    {pool : List Index} (hplace : r.Asks place signature written)
    (hwritten : ∀ role, written role = ((held pool place role).map (·.space)).map Space.code)
    (role : Role) : FailsBy r.Breaks (Group.string place signature pool role) := by
  have hlength : (held pool place role).length = (written role).length := by
    rw [hwritten, List.length_map, List.length_map]
  have hcount (s : Space) :
      ((held pool place role).map (·.space)).count s = (written role).count s.code := by
    rw [hwritten, List.count_map_of_injective _ _ fun _ _ => Space.code_inj.mp]
  refine FailsBy.mapError ?_
  change FailsBy _ (arrange (held pool place role) (signature.on role))
  unfold arrange
  split
  · next hagree =>
    intro e he
    obtain ⟨p, s, ⟨hshort, hleast⟩, hasked, rfl⟩ := fillFrom_eq_error_iff.mp he
    rw [Nat.zero_add]
    refine .noIndexOfSpace hplace (hagree.symm.trans hlength) hasked ?_ fun q hq t ht => ?_
    · obtain ⟨t, ht, hlt⟩ := hshort
      obtain rfl : s = t := Option.some.inj (hasked.symm.trans ht)
      rwa [← hcount]
    · -- an earlier position that came up short would have been reported
      rw [← hcount]
      exact Nat.le_of_not_lt fun hlt => absurd (hleast ⟨t, ht, hlt⟩) (Nat.not_le.mpr hq)
  · next hdiffer =>
    refine failsBy_error ?_
    rw [Group.violation, hlength]
    exact .signatureMismatch hplace fun heq => hdiffer (hlength.trans heq.symm)

theorem failsBy_ofIndices {place : Nat} {signature : Signature} {written : Role → List Int}
    {pool : List Index} (hplace : r.Asks place signature written)
    (hwritten : ∀ role, written role = ((held pool place role).map (·.space)).map Space.code) :
    FailsBy r.Breaks (Group.ofIndices place signature pool) :=
  (failsBy_string hplace hwritten .creator).bind fun _ _ =>
  (failsBy_string hplace hwritten .annihilator).bind fun _ _ => failsBy_ok _

/-! ### Super-vertices -/

theorem HasVertices.asks {vs : List Vertex} (h : r.HasVertices vs) {v : Vertex} (hv : v ∈ vs) :
    r.Asks v.position v.signature (r.vertexSpaces v.position) := by
  obtain ⟨number, o, -, ho, hw⟩ := h.exists_operator hv
  exact .vertex ho hw.signatures_eq

/-- Vertices of one super-vertex are of operators that the record puts together. -/
theorem HasVertices.breaks_mixedOperators {vs : List Vertex} (h : r.HasVertices vs)
    {v w : Vertex} (hv : v ∈ vs) (hw : w ∈ vs) (hnumber : v.superVertex = w.superVertex)
    (hname : v.name ≠ w.name) : r.Breaks (.mixedOperators v.name w.name) := by
  obtain ⟨m, o, hm, ho, hvo⟩ := h.exists_operator hv
  obtain ⟨n, p, hn, hp, hwp⟩ := h.exists_operator hw
  obtain rfl : m = n := by rw [hvo.superVertex_eq, hwp.superVertex_eq, hnumber]
  rw [hvo.name_eq, hwp.name_eq] at hname ⊢
  exact .mixedOperators hm hn ho hp hname

theorem failsBy_tensor {vs : List Vertex} {pool : List Index} (h : r.HasVertices vs)
    (hpool : List.Forall₂ VertexRow.Writes r.vertexRows pool) {s : SuperVertex}
    (hs : s ∈ SuperVertex.ofVertices vs) : FailsBy r.Breaks (SuperVertex.tensor pool s) := by
  have hmembers : ∀ v ∈ s.members, v ∈ vs ∧ v.superVertex = s.first.superVertex := by
    intro v hv
    rwa [SuperVertex.members_eq_filter hs, List.mem_filter, beq_iff_eq] at hv
  unfold SuperVertex.tensor
  split
  · next other hother =>
    obtain ⟨hfirst, -⟩ := hmembers s.first List.mem_cons_self
    obtain ⟨hmem, hnumber⟩ :=
      hmembers other (List.mem_cons_of_mem _ (List.mem_of_find?_eq_some hother))
    have hname : other.name ≠ s.first.name := by simpa using List.find?_some hother
    exact failsBy_error (h.breaks_mixedOperators hfirst hmem hnumber.symm hname.symm)
  · refine (failsBy_mapM fun v hv => ?_).bind fun _ _ => failsBy_ok _
    exact failsBy_ofIndices (h.asks (hmembers v hv).1)
      (map_space_filter_eq (hpool.imp fun _ _ hx => hx.2) v.position)

/-! ### Signatures together -/

theorem HasVertices.length_entries {vs : List Vertex} (h : r.HasVertices vs) :
    ((vs.map (·.signature)).flatMap (·.entries)).length =
      ((r.vertices.flatMap (·.slots)).flatMap (·.entries)).length := by
  have hvertices : r.vertices.map (·.signatures) = vs.map fun v => [v.signature] := by
    rw [← List.map_snd_zip h.length_eq.ge, List.map_map]
    exact Check.map_eq_of_forall₂ (fun _ _ ⟨_, hw⟩ => hw.signatures_eq) h.forall₂_zip
  have hsignatures : vs.map (·.signature) = r.vertices.flatMap (·.signatures) := by
    rw [List.flatMap_def, hvertices, ← List.flatMap_def, List.map_eq_flatMap]
  rw [hsignatures, List.flatMap_assoc, List.flatMap_assoc, List.length_flatMap,
    List.length_flatMap]
  simp only [Operator.length_entries]

end Record

namespace Contraction

open Check Record

/-- **Canonicalization fails only for rules that the record breaks.** -/
theorem failsBy_build (r : Record) : FailsBy r.Breaks (build r) := by
  unfold build checkPlaces
  refine (failsBy_fromOne (by simp [values])).bind fun _ _ => ?_
  refine (failsBy_checkCount .vertex rfl rfl).bind fun _ hvertices => ?_
  refine (failsBy_checkCount .superVertexAssociation rfl rfl).bind fun _ hsupers => ?_
  refine (failsBy_checkCount .arc rfl rfl).bind fun _ _ => ?_
  refine (failsBy_checkCount .externalArc rfl rfl).bind fun _ _ => ?_
  -- every number by itself
  refine (failsBy_mapM fun s hs => failsBy_fromOne hs).bind fun association hassociation => ?_
  refine (failsBy_mapM fun a ha => failsBy_arcOf (List.mem_append_left _ ha)).bind fun _ _ => ?_
  refine (failsBy_mapM fun a ha => failsBy_arcOf (List.mem_append_right _ ha)).bind fun _ _ => ?_
  refine (failsBy_mapM fun row hrow => failsBy_vertexIndex hrow).bind fun xs hxs => ?_
  refine (failsBy_mapM fun p hp => failsBy_externalIndex
    (List.mem_zipIdx_iff_getElem?.mp hp)).bind fun ys hys => ?_
  simp only [mapM_eq_ok_iff, fromOne_eq_ok_iff, vertexIndex_eq_ok_iff, externalIndex_eq_ok_iff,
    forall₂_zipIdx_iff] at hassociation hxs hys
  -- the vertices and the tensors they form
  refine (failsBy_mapM fun p hp => failsBy_ofOperator ?_).bind fun vs hvs => ?_
  · rw [List.mem_zipIdx_iff_getElem?, List.getElem?_zip_eq_some] at hp
    exact hp.2
  have h : r.HasVertices vs := by
    have hlength : (r.superVertices.length : Int) = r.vertices.length :=
      (checkCount_eq_ok_iff.mp hsupers).symm.trans (checkCount_eq_ok_iff.mp hvertices)
    exact ⟨Int.ofNat_inj.mp hlength,
      (Vertex.forall₂_ofOperator_iff hassociation).mp (mapM_eq_ok_iff.mp hvs)⟩
  refine (failsBy_checkCount .vertexIndex (congrArg Int.ofNat h.length_entries)
    hxs.length_eq.symm).bind fun _ _ => ?_
  refine (failsBy_checkCount .operator rfl h.length_ofVertices).bind fun _ _ => ?_
  refine (failsBy_mapM fun s hs => failsBy_tensor h hxs hs).bind fun _ _ => ?_
  -- the slots of the result
  refine (failsBy_checkCount .resultIndex (congrArg Int.ofNat r.result.length_entries)
    hys.length_eq.symm).bind fun _ _ => ?_
  refine (failsBy_mapM fun p hp => ?_).bind fun _ _ => failsBy_ok _
  exact failsBy_ofIndices (.slot (List.mem_zipIdx_iff_getElem?.mp hp))
    (map_space_filter_eq (hys.imp fun _ _ hx => hx.2) p.2)

/-- **What is reported of a rejected record is true of it**: its number is the one it writes, and
the rule is one that it breaks. -/
theorem breaks_of_ofRecord {r : Record} {e : Rejection} (h : ofRecord r = .error e) :
    e.number = r.id ∧ r.Breaks e.violation :=
  FailsBy.mapError (P := fun e : Rejection => e.number = r.id ∧ r.Breaks e.violation)
    (fun v hv => ⟨rfl, failsBy_build r v hv⟩) e h

/-- A record of one transposed vertex that asks for two virtual creators and has one of them, and
an occupied one. -/
def unfilled : Record where
  id := 7
  result := ⟨"R", false, []⟩
  factor := ⟨1, 1, 1⟩
  vertexCount := 1
  operatorCount := 1
  superVertices := [1]
  arcCount := 0
  externalArcCount := 0
  vertices := [⟨"T", true, [⟨[.occupied], [.virtual, .virtual]⟩]⟩]
  arcs := []
  externalArcs := []
  vertexRows := [⟨1, 1, 2, false, 1, 1⟩, ⟨1, 1, 1, false, 1, 1⟩, ⟨1, 2, 1, false, 1, 2⟩]
  resultRows := []

theorem unfilled_breaks :
    ofRecord unfilled = .error ⟨7, .noIndexOfSpace 1 .creator .virtual 2⟩ ∧
      unfilled.Breaks (.noIndexOfSpace 1 .creator .virtual 2) := by
  have hrejected : ofRecord unfilled = .error ⟨7, .noIndexOfSpace 1 .creator .virtual 2⟩ := by
    decide
  exact ⟨hrejected, (breaks_of_ofRecord hrejected).2⟩

end Contraction

/-! ### Records that break no rule -/

namespace Record

variable {r : Record} {c : Contraction} {vs : List Vertex}

theorem Coherent.one_le_of_mem_values (h : r.Coherent) {field : Field} {value : Int}
    (hvalue : value ∈ r.values field) : 1 ≤ value := by
  have hvertexRow := h.vertexRows_inRange
  have hresultRow := h.resultRows_inRange
  cases field with
  | contractionId =>
    obtain rfl := List.mem_singleton.mp hvalue
    exact h.id_pos
  | superVertexId => exact h.superVertices_pos value hvalue
  | arcVertex =>
    obtain ⟨a, ha, hend⟩ := List.mem_flatMap.mp hvalue
    have hpos := (List.mem_append.mp ha).elim (h.arcs_pos a) (h.externalArcs_pos a)
    grind
  | arcIndex => grind [values]
  | indexId => grind [values]
  | indexSpace => grind [values]
  | vertexId => grind [values]
  | indexType => grind [values]

/-- Each place of an accepted record has what it asks for. -/
theorem Asks.perm {place : Nat} {signature : Signature} {written : Role → List Int}
    (hplace : r.Asks place signature written) (h : r.Coherent) (hr : r.ResultFits) (role : Role) :
    (written role).Perm ((signature.on role).map Space.code) := by
  cases hplace with
  | vertex ho hsignature =>
    exact h.spaces_perm _ _ ho _ (by rw [hsignature]; exact List.mem_singleton_self _) role
  | slot hsignature => exact hr.spaces_perm _ _ hsignature role

theorem Yields.declared_eq_actual (h : r.Yields vs c) (quantity : Quantity) :
    r.declared quantity = r.actual quantity := by
  cases quantity with
  | vertex => exact h.vertexCount_eq
  | superVertexAssociation => exact h.superVertexCount_eq
  | arc => exact h.arcCount_eq
  | externalArc => exact h.externalArcCount_eq
  | vertexIndex =>
    have hplaces := h.hasVertices.length_entries
    rw [List.flatMap_map, h.vertexPlaces, ← h.vertexIndices.length_eq] at hplaces
    exact congrArg Int.ofNat hplaces.symm
  | operator => exact h.coherent.operatorCount_eq
  | resultIndex =>
    have hplaces := h.resultPlaces.trans h.externalIndices.length_eq.symm
    rw [r.result.length_entries] at hplaces
    exact congrArg Int.ofNat hplaces

/-- **A record that breaks a rule is not accepted.** -/
theorem Breaks.ofRecord_ne_ok {v : Violation} (hv : r.Breaks v) (c : Contraction) :
    Contraction.ofRecord r ≠ .ok c := by
  intro hok
  obtain ⟨vs, hyields⟩ := Contraction.ofRecord_eq_ok_iff.mp hok
  have h := hyields.coherent
  have hr := hyields.resultFits
  cases hv with
  | notPositive hvalue hle =>
    have := h.one_le_of_mem_values hvalue
    omega
  | unknownSpace hvalue hlt =>
    have hvertexRow := h.vertexRows_inRange
    have hresultRow := h.resultRows_inRange
    grind [values]
  | unknownRole hvalue hlt =>
    have hvertexRow := h.vertexRows_inRange
    have hresultRow := h.resultRows_inRange
    grind [values]
  | countMismatch hdiffer => exact hdiffer (hyields.declared_eq_actual _)
  | resultVertexMismatch hrow hdiffer =>
    exact hdiffer (h.resultRows_inRange _ (List.mem_of_getElem? hrow)).1
  | slotCount ho hdiffer => exact hdiffer (h.oneSlot _ (List.mem_of_getElem? ho))
  | @mixedOperators i j number o p hi hj ho hp hdiffer =>
    have hzip {k : Nat} {q : Operator} (hk : r.superVertices[k]? = some number)
        (hq : r.vertices[k]? = some q) : (number, q) ∈ r.superVertices.zip r.vertices :=
      List.mem_of_getElem? (List.getElem?_zip_eq_some.mpr ⟨hk, hq⟩)
    exact hdiffer (h.oneName _ (hzip hi ho) _ (hzip hj hp) rfl)
  | @signatureMismatch _ _ _ role hplace hdiffer =>
    have hlength := (hplace.perm h hr role).length_eq
    rw [List.length_map] at hlength
    exact hdiffer hlength.symm
  | @noIndexOfSpace _ signature _ role position space hplace _ _ hshort _ =>
    have hcount := (hplace.perm h hr role).count_eq space.code
    rw [List.count_map_of_injective _ _ fun _ _ => Space.code_inj.mp] at hcount
    have hle := ((signature.on role).take_sublist (position + 1)).count_le space
    omega

/-- **A record is rejected exactly if it breaks a rule.** -/
theorem exists_breaks_iff :
    (∃ v, r.Breaks v) ↔ ∃ e, Contraction.ofRecord r = .error e := by
  constructor
  · rintro ⟨v, hv⟩
    cases hresult : Contraction.ofRecord r with
    | ok c => exact absurd hresult (hv.ofRecord_ne_ok c)
    | error e => exact ⟨e, rfl⟩
  · rintro ⟨e, he⟩
    exact ⟨e.violation,
      FailsBy.mapError (P := fun e => r.Breaks e.violation) (Contraction.failsBy_build r) e he⟩

end Record
end TensorContraction
