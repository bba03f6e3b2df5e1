import TensorContraction.Proofs.Placement
import TensorContraction.Proofs.Transposition

/-!
# What a contraction tells of its record

Canonicalization sorts vertices into super-vertices, arranges indices by signatures and
turns the annihilators of a group around.  Names and signatures of operators are not kept
as such.  Even so the record can be read back from the contraction but for a few spellings:
how the factor is split, which rows are marked as external and which arcs they name, and
whether a vertex that does not lead its super-vertex is written transposed.

## Main definitions

* `Record.leader?` — the operator that leads a super-vertex.
* `Record.AgreesWith` — records that differ in such spellings at most.

## Main results

* `Record.Yields.map_withoutFlag_eq` — a contraction knows its vertices but for their flags.
* `Record.Yields.leaders_transposed` — the flags it knows are those of the leaders.
* `Contraction.ofRecord_eq_ok_iff_agreesWith` — the records that yield one contraction.
-/

namespace TensorContraction

/-- What can be computed from two columns of a table agrees if the columns do. -/
theorem map_eq_of_columns {α β γ δ : Type} {f : α → β} {g : α → γ} {h : α → δ} (k : β → γ → δ)
    (hk : ∀ a, h a = k (f a) (g a)) {xs ys : List α} (hf : xs.map f = ys.map f)
    (hg : xs.map g = ys.map g) : xs.map h = ys.map h := by
  have hzip (zs : List α) : zs.map h = List.zipWith k (zs.map f) (zs.map g) := by
    rw [List.zipWith_map, List.zipWith_self]
    exact List.map_congr_left fun a _ => hk a
  rw [hzip, hzip, hf, hg]

/-! ### Rows -/

/-- What canonicalization keeps of a row on a vertex. -/
def VertexRow.columns (row : VertexRow) : Int × Int × Int × Int :=
  (row.vertex, row.role, row.space, row.id)

/-- The columns that write an index on a vertex. -/
def Index.columns (x : Index) : Int × Int × Int × Int :=
  (x.vertex + 1, x.role.code, x.space.code, x.id + 1)

theorem VertexRow.writes_iff {row : VertexRow} {x : Index} :
    row.Writes x ↔ 1 ≤ row.arc ∧ row.columns = x.columns := by
  refine and_congr_right fun _ => ?_
  simp only [columns, Index.columns, Prod.mk.injEq]
  constructor
  · intro h
    exact ⟨h.vertex_eq, h.role_eq, h.space_eq, h.id_eq⟩
  · rintro ⟨hvertex, hrole, hspace, hid⟩
    exact ⟨hid, hspace, hvertex, hrole⟩

theorem VertexRow.forall₂_writes_iff {rows : List VertexRow} {xs : List Index} :
    List.Forall₂ Writes rows xs ↔
      (∀ row ∈ rows, 1 ≤ row.arc) ∧ rows.map columns = xs.map Index.columns := by
  have hcolumns : rows.map columns = xs.map Index.columns ↔
      List.Forall₂ (fun row x => row.columns = x.columns) rows xs := by
    rw [← List.forall₂_eq_eq_eq, List.forall₂_map_left_iff, List.forall₂_map_right_iff]
  rw [hcolumns, ← List.forall₂_and_left]
  constructor
  · intro h
    exact h.imp fun _ _ => writes_iff.mp
  · intro h
    exact h.imp fun _ _ => writes_iff.mpr

/-! ### Operators and vertices -/

theorem Ladder.seen_seen {α : Type} (l : Ladder α) (b : Bool) : (l.seen b).seen b = l := by
  cases b <;> rfl

theorem Operator.slots_eq (o : Operator) : o.slots = o.signatures.map (·.seen o.transposed) := by
  rw [signatures, List.map_map]
  exact (List.map_id _).symm.trans (List.map_congr_left fun l _ => (l.seen_seen _).symm)

/-- An operator is known by what it shows and by its flag. -/
theorem Operator.eq_of_shown {o o' : Operator} (h : o.shown = o'.shown)
    (ht : o.transposed = o'.transposed) : o = o' := by
  obtain ⟨hname, -, hsignatures⟩ := mk.inj h
  have hslots : o.slots = o'.slots := by rw [slots_eq, slots_eq, hsignatures, ht]
  cases o
  cases o'
  rw [mk.injEq]
  exact ⟨hname, ht, hslots⟩

namespace Vertex

/-- The operator of a vertex. -/
def operator (v : Vertex) : Operator := ⟨v.name, v.transposed, [v.signature.seen v.transposed]⟩

theorem operator_shown (v : Vertex) : v.operator.shown = v.withoutFlag.operator := by
  simp [operator, Operator.shown, Operator.signatures, withoutFlag, Ladder.seen_seen]

theorem WrittenAs.operator_eq {v : Vertex} {position : Nat} {superVertex : Int} {o : Operator}
    (h : v.WrittenAs position superVertex o) : o = v.operator := by
  refine Operator.eq_of_shown ?_ h.transposed_eq.symm
  rw [operator_shown, Operator.shown, h.signatures_eq, ← h.name_eq]
  rfl

/-- A vertex of which only the position and the super-vertex are known. -/
def bare (v : Vertex) : Vertex := ⟨v.position, v.superVertex, "", false, ⟨[], []⟩⟩

end Vertex

namespace Record

variable {r r' : Record} {vs vs' : List Vertex} {c : Contraction}

namespace HasVertices

theorem vertices_eq (h : r.HasVertices vs) : r.vertices = vs.map Vertex.operator := by
  rw [← Check.map_eq_of_forall₂ (f := Prod.snd) (fun _ _ ⟨_, hw⟩ => hw.operator_eq) h.forall₂_zip,
    List.map_snd_zip h.length_eq.ge]

theorem map_shown_eq (h : r.HasVertices vs) :
    r.vertices.map Operator.shown = (vs.map Vertex.withoutFlag).map Vertex.operator := by
  rw [h.vertices_eq, List.map_map, List.map_map]
  exact List.map_congr_left fun v _ => v.operator_shown

theorem map_bare_eq (h : r.HasVertices vs) (h' : r'.HasVertices vs')
    (hnumber : vs.map (·.superVertex) = vs'.map (·.superVertex)) :
    vs.map Vertex.bare = vs'.map Vertex.bare := by
  have hlength := congrArg List.length hnumber
  rw [List.length_map, List.length_map] at hlength
  have hposition : vs.map (·.position) = vs'.map (·.position) := by
    rw [h.map_position, h'.map_position, h.vertices_eq, h'.vertices_eq, List.length_map,
      List.length_map, hlength]
  exact map_eq_of_columns (fun p n => Vertex.mk p n "" false ⟨[], []⟩) (fun _ => rfl) hposition
    hnumber

end HasVertices

/-! ### Leaders -/

/-- The operator of the first vertex of a super-vertex. -/
def leader? (r : Record) (superVertex : Int) : Option Operator :=
  ((r.superVertices.zip r.vertices).find? (·.1 == superVertex)).map (·.2)

theorem leader?_shown (r : Record) (s : Int) :
    r.shown.leader? s = (r.leader? s).map Operator.shown := by
  rw [leader?, leader?, shown, List.zip_map_right, List.find?_map, Option.map_map, Option.map_map]
  rfl

theorem mem_superVertices_of_leader? {s : Int} {o : Operator} (h : r.leader? s = some o) :
    s ∈ r.superVertices := by
  obtain ⟨p, hp, -⟩ := Option.map_eq_some_iff.mp h
  have hs : p.1 = s := by simpa using List.find?_some hp
  rw [← hs]
  exact (List.of_mem_zip (List.mem_of_find?_eq_some hp)).1

theorem HasVertices.leader?_eq (h : r.HasVertices vs) (n : Nat) :
    r.leader? (n + 1) = (vs.find? (·.superVertex == n)).map Vertex.operator := by
  have hnumber : (fun p : Int × Operator => p.1 == (n : Int) + 1) ∘
      (fun v : Vertex => ((v.superVertex : Int) + 1, v.operator)) = fun v => v.superVertex == n := by
    funext v
    rw [Bool.eq_iff_iff]
    simp only [Function.comp_apply, beq_iff_eq]
    omega
  rw [leader?, h.superVertices_eq, h.vertices_eq, List.zip_map', List.find?_map, hnumber,
    Option.map_map]
  rfl

/-- Operators that show the same have the same leaders if the flags of the leaders agree. -/
theorem leader?_eq_of_shown (hs : r.superVertices = r'.superVertices)
    (hv : r.vertices.map Operator.shown = r'.vertices.map Operator.shown)
    (ht : ∀ s ∈ r.superVertices,
      (r.leader? s).map (·.transposed) = (r'.leader? s).map (·.transposed)) (s : Int) :
    r.leader? s = r'.leader? s := by
  have hshown : (r.leader? s).map Operator.shown = (r'.leader? s).map Operator.shown := by
    rw [← leader?_shown, ← leader?_shown, leader?, leader?, shown, shown, hs, hv]
  cases ho : r.leader? s with
  | none =>
    rw [ho, Option.map_none] at hshown
    exact (Option.map_eq_none_iff.mp hshown.symm).symm
  | some o =>
    have hflag := ht s (mem_superVertices_of_leader? ho)
    rw [ho, Option.map_some] at hshown hflag
    obtain ⟨o', ho', hoo'⟩ := Option.map_eq_some_iff.mp hshown.symm
    rw [ho', Option.map_some, Option.some_inj] at hflag
    rw [ho', Operator.eq_of_shown hoo'.symm hflag]

end Record

/-! ### Groups and tensors -/

/-- The signature of the vertex, or of the slot, that a group belongs to. -/
def Group.signature (g : Group) : Signature :=
  ⟨(g.inOrder .creator).map (·.space), (g.inOrder .annihilator).map (·.space)⟩

theorem Group.Carries.signature_eq {g : Group} {place : Nat} {signature : Signature}
    {pool : List Index} (h : g.Carries place signature pool) : signature = g.signature := by
  rw [Group.signature, h.spaces_eq, h.spaces_eq]
  rfl

/-- A tensor knows the names and the signatures of its vertices. -/
theorem SuperVertex.Joins.map_members {s : SuperVertex} {pool : List Index} {t : Tensor}
    (h : s.Joins pool t) :
    s.members.map (fun v => (v.name, v.signature)) =
      t.groups.map fun g => (t.name, g.signature) := by
  have hname : ∀ v ∈ s.members, v.name = t.name := by
    intro v hv
    rw [h.name_eq]
    rcases List.mem_cons.mp hv with rfl | hv
    · rfl
    · exact h.agree v hv
  refine Check.map_eq_of_forall₂ ?_ ((List.forall₂_and_left _ _).mpr ⟨hname, h.groups⟩)
  rintro v g ⟨hv, hg⟩
  rw [hv, hg.signature_eq]

theorem SuperVertex.map_flatMap_members {f : Vertex → Vertex}
    (hf : ∀ v, (f v).superVertex = v.superVertex) (vs : List Vertex) :
    ((ofVertices vs).flatMap members).map f = (ofVertices (vs.map f)).flatMap members := by
  rw [ofVertices_map hf, List.flatMap_map, List.map_flatMap]
  rfl

/-- A contraction is known by what is left without flags, and by its flags. -/
theorem Contraction.eq_of_withoutFlags {c c' : Contraction} (h : c.withoutFlags = c'.withoutFlags)
    (hr : c.result.transposed = c'.result.transposed)
    (ht : c.tensors.map (·.transposed) = c'.tensors.map (·.transposed)) : c = c' := by
  have hresult : c.result = c'.result :=
    congrArg₂ (fun t b => { t with transposed := b }) (congrArg result h) hr
  have htensors : c.tensors = c'.tensors := by
    rw [← List.map_id c.tensors, ← List.map_id c'.tensors]
    exact map_eq_of_columns (fun t b => { t with transposed := b }) (fun _ => rfl)
      (congrArg tensors h) ht
  calc c = { c.withoutFlags with result := c.result, tensors := c.tensors } := rfl
    _ = { c'.withoutFlags with result := c'.result, tensors := c'.tensors } := by
      rw [h, hresult, htensors]
    _ = c' := rfl

/-! ### Contractions -/

namespace Record

variable {r r' : Record} {vs vs' : List Vertex} {c : Contraction}

/-- Records that agree in all that a contraction keeps. -/
structure AgreesWith (r r' : Record) : Prop where
  /-- They have one number. -/
  id_eq : r.id = r'.id
  /-- They add to one operator. -/
  result_eq : r.result = r'.result
  /-- Their factors have one value, in whatever parts. -/
  factor_eq : r.factor.value = r'.factor.value
  /-- They declare as many vertices. -/
  vertexCount_eq : r.vertexCount = r'.vertexCount
  /-- They declare as many operators. -/
  operatorCount_eq : r.operatorCount = r'.operatorCount
  /-- They declare as many arcs. -/
  arcCount_eq : r.arcCount = r'.arcCount
  /-- They declare as many external arcs. -/
  externalArcCount_eq : r.externalArcCount = r'.externalArcCount
  /-- Their vertices have the same super-vertices. -/
  superVertices_eq : r.superVertices = r'.superVertices
  /-- Vertex by vertex, their operators show one name and one signature. -/
  vertices_eq : r.vertices.map Operator.shown = r'.vertices.map Operator.shown
  /-- Super-vertices are led by the same operators, flags and lists as written. -/
  leaders_eq : ∀ s, r.leader? s = r'.leader? s
  /-- They have the same arcs. -/
  arcs_eq : r.arcs = r'.arcs
  /-- They have the same external arcs. -/
  externalArcs_eq : r.externalArcs = r'.externalArcs
  /-- Their rows on vertices agree in vertex, role, space and number. -/
  columns_eq : r.vertexRows.map VertexRow.columns = r'.vertexRows.map VertexRow.columns
  /-- They have the same rows of the result. -/
  resultRows_eq : r.resultRows = r'.resultRows

namespace Yields

theorem superVertices_eq (h : r.Yields vs c) : c.superVertices = vs.map (·.superVertex) := by
  refine List.map_injective_iff.mpr succ_injective ?_
  rw [← Check.forall₂_eq_iff.mp h.superVertices, h.hasVertices.superVertices_eq, List.map_map]
  rfl

theorem result_signatures (h : r.Yields vs c) :
    r.result.signatures = c.result.groups.map Group.signature := by
  rw [← List.zipIdx_map_fst 0 r.result.signatures]
  exact Check.map_eq_of_forall₂ (fun _ _ hg => hg.signature_eq) h.resultGroups

theorem map_members (h : r.Yields vs c) :
    ((SuperVertex.ofVertices vs).flatMap (·.members)).map (fun v => (v.name, v.signature)) =
      c.tensors.flatMap fun t => t.groups.map fun g => (t.name, g.signature) := by
  rw [List.map_flatMap, List.flatMap_def, List.flatMap_def]
  exact congrArg List.flatten (Check.map_eq_of_forall₂ (fun _ _ hs => hs.map_members) h.tensors)

/-- **A contraction knows its vertices but for their flags.** -/
theorem map_withoutFlag_eq (h : r.Yields vs c) (h' : r'.Yields vs' c) :
    vs.map Vertex.withoutFlag = vs'.map Vertex.withoutFlag := by
  have hnumber : vs.map (·.superVertex) = vs'.map (·.superVertex) := by
    rw [← h.superVertices_eq, h'.superVertices_eq]
  -- positions and super-vertices alone determine how the vertices are sorted
  have hbare : ((SuperVertex.ofVertices vs).flatMap (·.members)).map Vertex.bare =
      ((SuperVertex.ofVertices vs').flatMap (·.members)).map Vertex.bare := by
    rw [SuperVertex.map_flatMap_members (f := Vertex.bare) fun _ => rfl,
      h.hasVertices.map_bare_eq h'.hasVertices hnumber,
      SuperVertex.map_flatMap_members (f := Vertex.bare) fun _ => rfl]
  have hmembers : ((SuperVertex.ofVertices vs).flatMap (·.members)).map Vertex.withoutFlag =
      ((SuperVertex.ofVertices vs').flatMap (·.members)).map Vertex.withoutFlag :=
    map_eq_of_columns (fun v p => Vertex.mk v.position v.superVertex p.1 false p.2) (fun _ => rfl)
      hbare (h.map_members.trans h'.map_members.symm)
  have hperm : (vs.map Vertex.withoutFlag).Perm (vs'.map Vertex.withoutFlag) := by
    have hp := (SuperVertex.flatMap_members_perm vs).map Vertex.withoutFlag
    rw [hmembers] at hp
    exact hp.symm.trans ((SuperVertex.flatMap_members_perm vs').map Vertex.withoutFlag)
  have hposition {r : Record} {vs : List Vertex} (h : r.HasVertices vs) :
      (vs.map Vertex.withoutFlag).Pairwise fun v w => v.position < w.position :=
    List.pairwise_map.mpr h.pairwise_position
  refine hperm.eq_of_pairwise ?_ (hposition h.hasVertices) (hposition h'.hasVertices)
  intro v w _ _ hvw hwv
  omega

/-- **The flags that a contraction knows are those of the leaders.** -/
theorem leaders_transposed (h : r.Yields vs c) :
    ((Ascending.ofList c.superVertices).map fun n : Nat =>
        (r.leader? (n + 1)).map (·.transposed)) =
      c.tensors.map fun t => some t.transposed := by
  have hfirst : ((SuperVertex.ofVertices vs).map (·.members)).map
        (fun ms => ms.head?.map (·.transposed)) = c.tensors.map fun t => some t.transposed := by
    rw [List.map_map]
    exact Check.map_eq_of_forall₂ (fun _ _ hs => congrArg some hs.transposed_eq.symm) h.tensors
  rw [← hfirst, h.superVertices_eq, SuperVertex.ofVertices_map_members, List.map_map]
  refine List.map_congr_left fun n _ => ?_
  rw [h.hasVertices.leader?_eq, Option.map_map, Function.comp_apply, List.head?_filter]
  rfl

theorem agreesWith (h : r.Yields vs c) (h' : r'.Yields vs' c) : r.AgreesWith r' := by
  have hsupers : r.superVertices = r'.superVertices := by
    rw [Check.forall₂_eq_iff.mp h.superVertices, Check.forall₂_eq_iff.mp h'.superVertices]
  have hvertices : r.vertices.map Operator.shown = r'.vertices.map Operator.shown := by
    rw [h.hasVertices.map_shown_eq, h'.hasVertices.map_shown_eq, h.map_withoutFlag_eq h']
  have harcs := Arc.writtenAs_leftUnique.forall₂ h.arcs h'.arcs
  have hexternals := Arc.writtenAs_leftUnique.forall₂ h.externalArcs h'.externalArcs
  constructor
  case id_eq => rw [h.id_eq, h'.id_eq]
  case result_eq =>
    have hname := h.resultName_eq.symm.trans h'.resultName_eq
    have hsignatures := h.result_signatures.trans h'.result_signatures.symm
    refine Operator.eq_of_shown ?_ (h.resultTransposed_eq.symm.trans h'.resultTransposed_eq)
    rw [Operator.shown, Operator.shown, hname, hsignatures]
  case factor_eq => rw [← h.factor_eq, h'.factor_eq]
  case vertexCount_eq => rw [h.superVertexCount_eq, hsupers, h'.superVertexCount_eq]
  case operatorCount_eq =>
    rw [h.operatorCount_eq, h'.operatorCount_eq, h.tensors.length_eq, h'.tensors.length_eq]
  case arcCount_eq => rw [h.arcCount_eq, harcs, h'.arcCount_eq]
  case externalArcCount_eq => rw [h.externalArcCount_eq, hexternals, h'.externalArcCount_eq]
  case superVertices_eq => exact hsupers
  case vertices_eq => exact hvertices
  case leaders_eq =>
    refine leader?_eq_of_shown hsupers hvertices fun s hs => ?_
    have hflags := List.map_inj_left.mp (h.leaders_transposed.trans h'.leaders_transposed.symm)
    rw [Check.forall₂_eq_iff.mp h.superVertices] at hs
    obtain ⟨n, hn, rfl⟩ := List.mem_map.mp hs
    exact hflags n (Ascending.mem_ofList.mpr hn)
  case arcs_eq => exact harcs
  case externalArcs_eq => exact hexternals
  case columns_eq =>
    have hcolumns := (VertexRow.forall₂_writes_iff.mp h.vertexIndices).2
    exact hcolumns.trans (VertexRow.forall₂_writes_iff.mp h'.vertexIndices).2.symm
  case resultRows_eq =>
    exact ResultRow.writes_leftUnique.forall₂ h.externalIndices h'.externalIndices

end Yields

/-- Written without transposition, records that agree yield the same by the same vertices. -/
theorem AgreesWith.yields_shown (ha : r.AgreesWith r')
    (harc : ∀ row ∈ r'.vertexRows, 1 ≤ row.arc) (h : r.shown.Yields vs c) :
    r'.shown.Yields vs c := by
  have heq : r'.shown = { r.shown with factor := r'.factor, vertexRows := r'.vertexRows } := by
    simp only [shown, ha.id_eq, ha.result_eq, ha.vertexCount_eq, ha.operatorCount_eq,
      ha.superVertices_eq, ha.arcCount_eq, ha.externalArcCount_eq, ha.vertices_eq, ha.arcs_eq,
      ha.externalArcs_eq, ha.resultRows_eq]
  have hcolumns := (VertexRow.forall₂_writes_iff.mp h.vertexIndices).2
  have hrows : List.Forall₂ VertexRow.Writes r'.vertexRows c.vertexIndices :=
    VertexRow.forall₂_writes_iff.mpr ⟨harc, ha.columns_eq.symm.trans hcolumns⟩
  rw [heq]
  exact { h with vertexIndices := hrows, factor_eq := h.factor_eq.trans ha.factor_eq }

end Record

namespace Contraction

variable {r r' : Record} {c : Contraction}

theorem ofRecord_of_agreesWith (h : ofRecord r = .ok c) (ha : r.AgreesWith r')
    (harc : ∀ row ∈ r'.vertexRows, 1 ≤ row.arc) : ofRecord r' = .ok c := by
  have hshown : ofRecord r.shown = .ok c.withoutFlags := by
    rw [ofRecord_shown, h]
    rfl
  obtain ⟨ws, hws⟩ := ofRecord_eq_ok_iff.mp hshown
  have hshown' : ofRecord r'.shown = .ok c.withoutFlags :=
    ofRecord_eq_ok_iff.mpr ⟨ws, ha.yields_shown harc hws⟩
  rw [ofRecord_shown] at hshown'
  -- so the other record is accepted as well, and only flags could differ
  obtain ⟨c', h', hc'⟩ : ∃ c', ofRecord r' = .ok c' ∧ c'.withoutFlags = c.withoutFlags :=
    Check.map_eq_ok_iff.mp hshown'
  obtain ⟨vs, hy⟩ := ofRecord_eq_ok_iff.mp h
  obtain ⟨vs', hy'⟩ := ofRecord_eq_ok_iff.mp h'
  have hsupers : c'.superVertices = c.superVertices := congrArg (·.superVertices) hc'
  have hflags : (c'.tensors.map fun t => some t.transposed) =
      c.tensors.map fun t => some t.transposed := by
    rw [← hy'.leaders_transposed, ← hy.leaders_transposed, hsupers]
    simp only [ha.leaders_eq]
  rw [h', Except.ok.injEq]
  refine eq_of_withoutFlags hc' ?_ ?_
  · rw [hy'.resultTransposed_eq, ← ha.result_eq, hy.resultTransposed_eq]
  · refine List.map_injective_iff.mpr (Option.some_injective Bool) ?_
    rw [List.map_map, List.map_map]
    exact hflags

/-- **The records that yield one contraction.**  They agree in everything but how the factor
is split, the columns of rows that mark an index as external and name its arc, which has to
make sense, and the flags and lists of vertices that do not lead their super-vertex. -/
theorem ofRecord_eq_ok_iff_agreesWith (h : ofRecord r = .ok c) :
    ofRecord r' = .ok c ↔ r.AgreesWith r' ∧ ∀ row ∈ r'.vertexRows, 1 ≤ row.arc := by
  constructor
  · intro h'
    obtain ⟨vs, hy⟩ := ofRecord_eq_ok_iff.mp h
    obtain ⟨vs', hy'⟩ := ofRecord_eq_ok_iff.mp h'
    exact ⟨hy.agreesWith hy', (VertexRow.forall₂_writes_iff.mp hy'.vertexIndices).1⟩
  · rintro ⟨ha, harc⟩
    exact ofRecord_of_agreesWith h ha harc

/-- The crossing record with its factor split elsewhere, other marks and arcs in its rows and
the last vertex, which is not the first of its super-vertex, written transposed. -/
def respelledCrossing : Record :=
  { crossing with
    factor := ⟨-1, 1 / 2, 1⟩
    vertices := [⟨"T", false, [⟨[.occupied], []⟩]⟩, ⟨"H", true, [⟨[.virtual], [.occupied]⟩]⟩,
      ⟨"T", true, [⟨[.virtual, .occupied], []⟩]⟩]
    vertexRows := [⟨1, 1, 1, false, 5, 1⟩, ⟨3, 2, 1, true, 1, 2⟩, ⟨2, 1, 1, true, 2, 2⟩,
      ⟨2, 2, 2, false, 7, 1⟩, ⟨3, 2, 2, false, 1, 2⟩] }

theorem ofRecord_respelledCrossing : ofRecord respelledCrossing = .ok crossingContraction := by
  decide +kernel

theorem crossing_agreesWith :
    ofRecord crossing = .ok crossingContraction ∧
      ofRecord respelledCrossing = .ok crossingContraction ∧
      crossing.AgreesWith respelledCrossing :=
  ⟨ofRecord_crossing, ofRecord_respelledCrossing,
    ((ofRecord_eq_ok_iff_agreesWith ofRecord_crossing).mp ofRecord_respelledCrossing).1⟩

end Contraction
end TensorContraction
