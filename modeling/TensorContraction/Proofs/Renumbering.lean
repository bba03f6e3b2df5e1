import TensorContraction.Antisymmetry.Origin
import TensorContraction.Proofs.Canonical

/-!
# Records in other numbers

The numbers of indices are labels.  A record with its indices renumbered, so that different
numbers of a space stay different, is accepted if the record itself is, and it yields the
same contraction in the new numbers: nothing in a record is sorted by them.

## Main definitions

* `Record.renumber`, `Contraction.renumber` — a record and a contraction in other numbers.
* `Record.Renumbers` — other numbers that keep indices apart.

## Main results

* `Contraction.ofRecord_renumber` — renumbering a record renumbers its contraction.
* `Origin.of?_renumber` — an index keeps its origin.
-/

namespace TensorContraction

/-! ### Other numbers -/

section Ladder

variable {α β : Type}

/-- A ladder with something done to each entry. -/
def Ladder.map (f : α → β) (l : Ladder α) : Ladder β := ⟨l.creators.map f, l.annihilators.map f⟩

@[simp] theorem Ladder.on_map (f : α → β) (l : Ladder α) (role : Role) :
    (l.map f).on role = (l.on role).map f := by
  cases role <;> rfl

theorem Ladder.entries_map (f : α → β) (l : Ladder α) :
    (l.map f).entries = l.entries.map f :=
  List.map_append.symm

end Ladder

/-- An index in other numbers. -/
def Index.renumber (f : Space → Nat → Nat) (x : Index) : Index := { x with id := f x.space x.id }

/-- A tensor with something done to each index. -/
def Tensor.map (φ : Index → Index) (t : Tensor) : Tensor :=
  { t with groups := t.groups.map (Ladder.map φ) }

/-- A tensor in other numbers. -/
def Tensor.renumber (f : Space → Nat → Nat) (t : Tensor) : Tensor :=
  { t with groups := t.groups.map (Ladder.map (Index.renumber f)) }

/-- A contraction in other numbers. -/
def Contraction.renumber (f : Space → Nat → Nat) (c : Contraction) : Contraction :=
  { c with
    result := c.result.renumber f
    tensors := c.tensors.map (Tensor.renumber f)
    vertexIndices := c.vertexIndices.map (Index.renumber f)
    externalIndices := c.externalIndices.map (Index.renumber f) }

theorem Index.renumber_id (f : Space → Nat → Nat) (x : Index) :
    (x.renumber f).id = f x.space x.id := rfl

/-- A record with another number written for each index, which may depend on the space. -/
def Record.renumber (ρ : Int → Int → Int) (r : Record) : Record :=
  { r with
    vertexRows := r.vertexRows.map fun row => { row with id := ρ row.space row.id }
    resultRows := r.resultRows.map fun row => { row with id := ρ row.space row.id } }

/-- The numbers that a record writes for indices, each with the number of the space. -/
def Record.numbers (r : Record) : List (Int × Int) :=
  (r.vertexRows.map fun row => (row.space, row.id)) ++
    r.resultRows.map fun row => (row.space, row.id)

/-- Positive numbers that are different for different numbers of a space. -/
structure Record.Renumbers (r : Record) (ρ : Int → Int → Int) : Prop where
  /-- Numbers are counted from one. -/
  pos : ∀ p ∈ r.numbers, 1 ≤ ρ p.1 p.2
  /-- No two numbers of a space become one. -/
  inj : ∀ p ∈ r.numbers, ∀ q ∈ r.numbers, p.1 = q.1 → ρ p.1 p.2 = ρ q.1 q.2 → p.2 = q.2

/-- Written numbers as numbers counted from zero. -/
def fromZero (ρ : Int → Int → Int) (s : Space) (n : Nat) : Nat := (ρ s.code (n + 1) - 1).toNat

/-! ### Groups -/

section Groups

/-- A change of indices that keeps what arranging looks at: the space and the role of an index,
and which indices stand in one place. -/
structure Index.KeepsPlaces (φ : Index → Index) (σ : Nat → Nat) : Prop where
  /-- The space is kept. -/
  space_eq : ∀ x, (φ x).space = x.space
  /-- The role is kept. -/
  role_eq : ∀ x, (φ x).role = x.role
  /-- Each place becomes another. -/
  vertex_eq : ∀ x, (φ x).vertex = σ x.vertex
  /-- No two places become one. -/
  injective : Function.Injective σ

variable {φ : Index → Index} {σ : Nat → Nat}

theorem Index.KeepsPlaces.held_map (h : Index.KeepsPlaces φ σ) (pool : List Index) (place : Nat)
    (role : Role) : held (pool.map φ) (σ place) role = (held pool place role).map φ := by
  rw [held, held, List.filter_map]
  refine congrArg _ (List.filter_congr fun x _ => ?_)
  rw [Bool.eq_iff_iff]
  simp only [Function.comp_apply, Bool.and_eq_true, beq_iff_eq, h.vertex_eq, h.role_eq,
    h.injective.eq_iff]

theorem Index.KeepsPlaces.ofSpace_map (h : Index.KeepsPlaces φ σ) (s : Space) (xs : List Index) :
    ofSpace s (xs.map φ) = (ofSpace s xs).map φ := by
  rw [ofSpace, ofSpace, List.filter_map]
  refine congrArg _ (List.filter_congr fun x _ => ?_)
  rw [Function.comp_apply, h.space_eq]

theorem Group.inOrder_map (φ : Index → Index) (g : Group) (role : Role) :
    Group.inOrder (g.map φ) role = (g.inOrder role).map φ := by
  cases role with
  | creator => rfl
  | annihilator => exact List.map_reverse.symm

theorem Group.Carries.map (h : Index.KeepsPlaces φ σ) {g : Group} {place : Nat}
    {signature : Signature} {pool : List Index} (hg : g.Carries place signature pool) :
    Group.Carries (g.map φ) (σ place) signature (pool.map φ) where
  perm role := by
    rw [Ladder.on_map, h.held_map]
    exact (hg.perm role).map _
  spaces_eq role := by
    rw [Group.inOrder_map, List.map_map, ← hg.spaces_eq role]
    exact List.map_congr_left fun x _ => h.space_eq x
  stable role s := by
    rw [Group.inOrder_map, h.held_map, h.ofSpace_map, h.ofSpace_map, hg.stable role s]

variable (f : Space → Nat → Nat)

theorem Index.keepsPlaces_renumber : Index.KeepsPlaces (Index.renumber f) fun place => place :=
  ⟨fun _ => rfl, fun _ => rfl, fun _ => rfl, fun _ _ h => h⟩

theorem held_renumber (pool : List Index) (place : Nat) (role : Role) :
    held (pool.map (Index.renumber f)) place role =
      (held pool place role).map (Index.renumber f) :=
  (Index.keepsPlaces_renumber f).held_map pool place role

theorem ofSpace_renumber (s : Space) (xs : List Index) :
    ofSpace s (xs.map (Index.renumber f)) = (ofSpace s xs).map (Index.renumber f) :=
  (Index.keepsPlaces_renumber f).ofSpace_map s xs

theorem Group.Carries.renumber {g : Group} {place : Nat} {signature : Signature}
    {pool : List Index} (h : g.Carries place signature pool) :
    Group.Carries (g.map (Index.renumber f)) place signature (pool.map (Index.renumber f)) :=
  h.map (Index.keepsPlaces_renumber f)

theorem SuperVertex.Joins.renumber {s : SuperVertex} {pool : List Index} {t : Tensor}
    (h : s.Joins pool t) : s.Joins (pool.map (Index.renumber f)) (t.renumber f) where
  agree := h.agree
  name_eq := h.name_eq
  transposed_eq := h.transposed_eq
  groups := List.forall₂_map_right_iff.mpr (h.groups.imp fun _ _ hg => hg.renumber f)

end Groups

/-! ### Records -/

section Rows

variable {r : Record} {ρ : Int → Int → Int} {vs : List Vertex} {c : Contraction}

theorem Index.WrittenAs.renumber {x : Index} {id space vertex role : Int}
    (h : x.WrittenAs id space vertex role) (hpos : 1 ≤ ρ space id) :
    (x.renumber (fromZero ρ)).WrittenAs (ρ space id) space vertex role where
  id_eq := by
    rw [h.id_eq, h.space_eq] at hpos ⊢
    rw [Index.renumber_id, fromZero]
    omega
  space_eq := h.space_eq
  vertex_eq := h.vertex_eq
  role_eq := h.role_eq

theorem Record.Renumbers.vertexIndices (h : r.Renumbers ρ) {xs : List Index}
    (hxs : List.Forall₂ VertexRow.Writes r.vertexRows xs) :
    List.Forall₂ VertexRow.Writes (r.renumber ρ).vertexRows
      (xs.map (Index.renumber (fromZero ρ))) := by
  refine Check.forall₂_map hxs ?_
  rintro row hrow x ⟨harc, hwrites⟩
  exact ⟨harc, hwrites.renumber (h.pos _ (List.mem_append_left _ (List.mem_map_of_mem hrow)))⟩

theorem Record.Renumbers.externalIndices (h : r.Renumbers ρ) {xs : List Index}
    (hxs : List.Forall₂ ResultRow.Writes r.resultRows xs) :
    List.Forall₂ ResultRow.Writes (r.renumber ρ).resultRows
      (xs.map (Index.renumber (fromZero ρ))) := by
  refine Check.forall₂_map hxs ?_
  rintro row hrow x ⟨hslot, hwrites⟩
  exact ⟨hslot, hwrites.renumber (h.pos _ (List.mem_append_right _ (List.mem_map_of_mem hrow)))⟩

theorem Record.Yields.renumber (hy : r.Yields vs c) (h : r.Renumbers ρ) :
    (r.renumber ρ).Yields vs (c.renumber (fromZero ρ)) where
  id_eq := hy.id_eq
  vertexCount_eq := hy.vertexCount_eq
  superVertexCount_eq := hy.superVertexCount_eq
  arcCount_eq := hy.arcCount_eq
  externalArcCount_eq := hy.externalArcCount_eq
  superVertices := hy.superVertices
  arcs := hy.arcs
  externalArcs := hy.externalArcs
  vertexIndices := h.vertexIndices hy.vertexIndices
  externalIndices := h.externalIndices hy.externalIndices
  vertices := hy.vertices
  vertexPlaces := hy.vertexPlaces.trans (List.length_map _).symm
  operatorCount_eq := hy.operatorCount_eq
  tensors := List.forall₂_map_right_iff.mpr (hy.tensors.imp fun _ _ ht => ht.renumber _)
  resultPlaces := hy.resultPlaces.trans (List.length_map _).symm
  resultGroups := List.forall₂_map_right_iff.mpr (hy.resultGroups.imp fun _ _ hg => hg.renumber _)
  resultName_eq := hy.resultName_eq
  resultTransposed_eq := hy.resultTransposed_eq
  factor_eq := hy.factor_eq

/-- **Renumbering a record renumbers its contraction.** -/
theorem Contraction.ofRecord_renumber (hr : ofRecord r = .ok c) (h : r.Renumbers ρ) :
    ofRecord (r.renumber ρ) = .ok (c.renumber (fromZero ρ)) := by
  obtain ⟨vs, hy⟩ := ofRecord_eq_ok_iff.mp hr
  exact ofRecord_eq_ok_iff.mpr ⟨vs, hy.renumber h⟩

end Rows

/-! ### Origins -/

namespace Contraction

variable {r : Record} {ρ : Int → Int → Int} {c : Contraction} {f : Space → Nat → Nat}

/-- All indices of a contraction. -/
def indices (c : Contraction) : List Index := c.vertexIndices ++ c.externalIndices

/-- Numbers that stay different for the indices of a space. -/
def Renumbers (c : Contraction) (f : Space → Nat → Nat) : Prop :=
  ∀ x ∈ c.indices, ∀ y ∈ c.indices, x.space = y.space → f x.space x.id = f y.space y.id →
    x.id = y.id

theorem mem_numbers_of_mem_indices (hr : ofRecord r = .ok c) {x : Index} (hx : x ∈ c.indices) :
    (x.space.code, (x.id : Int) + 1) ∈ r.numbers := by
  obtain ⟨vs, hy⟩ := ofRecord_eq_ok_iff.mp hr
  rcases List.mem_append.mp hx with hx | hx
  · obtain ⟨row, hrow, -, hwrites⟩ := Check.exists_left_of_forall₂ hy.vertexIndices hx
    rw [← hwrites.space_eq, ← hwrites.id_eq]
    exact List.mem_append_left _ (List.mem_map_of_mem hrow)
  · obtain ⟨row, hrow, -, hwrites⟩ := Check.exists_left_of_forall₂ hy.externalIndices hx
    rw [← hwrites.space_eq, ← hwrites.id_eq]
    exact List.mem_append_right _ (List.mem_map_of_mem hrow)

theorem renumbers_of_ofRecord (hr : ofRecord r = .ok c) (h : r.Renumbers ρ) :
    c.Renumbers (fromZero ρ) := by
  intro x hx y hy hspace hnumber
  have hxn := mem_numbers_of_mem_indices hr hx
  have hyn := mem_numbers_of_mem_indices hr hy
  have hxpos := h.pos _ hxn
  have hypos := h.pos _ hyn
  have hid := h.inj _ hxn _ hyn (congrArg Space.code hspace)
  simp only [fromZero] at hnumber hxpos hypos hid
  omega

/-- Renumbered external indices of one place are the same only if they were before. -/
theorem Renumbers.eq_of_renumber_eq (h : c.Renumbers f) {x y : Index} (hx : x ∈ c.indices)
    (hy : y ∈ c.indices) (heq : x.renumber f = y.renumber f) : x = y := by
  obtain ⟨hnumber, hspace, hvertex, hrole⟩ := Index.mk.inj heq
  have hid : x.id = y.id := h x hx y hy hspace hnumber
  exact Index.rank_inj.mp (by rw [Index.rank, Index.rank, hid, hspace, hvertex, hrole])

end Contraction

/-- A key in other numbers. -/
def Key.renumber (f : Space → Nat → Nat) (k : Key) : Key := { k with id := f k.space k.id }

namespace Origin

variable {r : Record} {c : Contraction} {f : Space → Nat → Nat}

theorem table_map {φ : Index → Index} {κ : Key → Key} (h : ∀ x, (φ x).key = κ x.key)
    (tensors : List Tensor) :
    table (tensors.map (Tensor.map φ)) = (table tensors).map fun p => (κ p.1, p.2) := by
  have hkey (o : Origin) : (fun x : Index => (x.key, o)) ∘ φ =
      (fun p : Key × Origin => (κ p.1, p.2)) ∘ fun x => (x.key, o) := by
    funext x
    rw [Function.comp_apply, Function.comp_apply, h]
  simp only [table, List.zipIdx_map, List.flatMap_map, List.map_flatMap, Tensor.map,
    Prod.map_fst, Prod.map_snd, id_eq, Ladder.entries_map, List.map_map, hkey]

theorem table_renumber (f : Space → Nat → Nat) (tensors : List Tensor) :
    table (tensors.map (Tensor.renumber f)) =
      (table tensors).map fun p => (p.1.renumber f, p.2) :=
  table_map (φ := Index.renumber f) (κ := Key.renumber f) (fun _ => rfl) tensors

theorem exists_entry_of_mem_table {tensors : List Tensor} {p : Key × Origin}
    (hp : p ∈ table tensors) :
    ∃ x ∈ (tensors.flatMap (·.groups)).flatMap (·.entries), x.key = p.1 := by
  simp only [table, List.mem_flatMap, List.mem_map] at hp
  obtain ⟨⟨t, i⟩, ht, ⟨g, j⟩, hg, x, hx, rfl⟩ := hp
  have hgroup : g ∈ tensors.flatMap (·.groups) :=
    List.mem_flatMap.mpr ⟨t, List.fst_mem_of_mem_zipIdx ht, List.fst_mem_of_mem_zipIdx hg⟩
  exact ⟨x, List.mem_flatMap.mpr ⟨g, hgroup, hx⟩, rfl⟩

/-- Looking up a key finds the same if no other key is taken for it. -/
theorem lookup_renumber {k : Key} {entries : List (Key × Origin)}
    (h : ∀ p ∈ entries, p.1.renumber f = k.renumber f → p.1 = k) :
    (entries.map fun p => (p.1.renumber f, p.2)).lookup (k.renumber f) = entries.lookup k := by
  induction entries with
  | nil => rfl
  | cons p entries ih =>
    have hp := h p List.mem_cons_self
    rw [List.map_cons, List.lookup_cons, List.lookup_cons,
      ih fun q hq => h q (List.mem_cons_of_mem _ hq)]
    have hbeq : (k.renumber f == p.1.renumber f) = (k == p.1) := by
      rw [Bool.eq_iff_iff, beq_iff_eq, beq_iff_eq]
      exact ⟨fun heq => (hp heq.symm).symm, congrArg (Key.renumber f)⟩
    rw [hbeq]

/-- **An index keeps its origin.** -/
theorem of?_renumber (hr : Contraction.ofRecord r = .ok c) (h : c.Renumbers f) {x : Index}
    (hx : x ∈ c.externalIndices) :
    of? (c.renumber f).tensors (x.renumber f) = of? c.tensors x := by
  obtain ⟨vs, hy⟩ := Contraction.ofRecord_eq_ok_iff.mp hr
  rw [of?, of?, Contraction.renumber, table_renumber]
  refine lookup_renumber (k := x.key) fun p hp heq => ?_
  obtain ⟨y, hyt, hkey⟩ := exists_entry_of_mem_table hp
  have hyc : y ∈ c.indices := List.mem_append_left _ (hy.vertexEntries_perm.mem_iff.mp hyt)
  rw [← hkey] at heq ⊢
  obtain ⟨hspace, hnumber, hrole⟩ : y.space = x.space ∧ f y.space y.id = f x.space x.id ∧
      y.role = x.role := Key.mk.inj heq
  have hid : y.id = x.id := h y hyc x (List.mem_append_right _ hx) hspace hnumber
  rw [Index.key, Index.key, hspace, hid, hrole]

end Origin
end TensorContraction
