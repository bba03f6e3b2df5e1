import Mathlib.Data.Prod.Lex
import TensorContraction.Proofs.OriginPattern
import TensorContraction.Proofs.Table

/-!
# The first slot that carries an index

The origin of an index can be found in two ways.  One looks through the slots of the product in
order and stops at the first that carries the index, on whatever vertex.  The other passes over
the product once and fills a table with the slot of each key, where a key that is in the table
already keeps its slot.  Both find the same slot, the first one in the order of tensors and, within
a tensor, of slots.

## Main definitions

* `Origin.Carries` — a slot carries an index.
* `Origin.position` — slots in order.
* `Origin.firstSlots` — the table of all keys.

## Main results

* `Origin.slots_pairwise` — slots are looked through in order.
* `Origin.firstSlots_eq_fill` — the table is filled with the entries of all slots in order.
* `Origin.of?_iff_first` — which slot is found, and when there is none.
-/

namespace TensorContraction.Origin

variable {tensors : List Tensor} {x : Index} {o : Origin}

/-! ### Slots that carry an index -/

/-- A slot of some tensors carries an index in one of its two strings, whatever the vertex of the
index is. -/
def Carries (tensors : List Tensor) (o : Origin) (x : Index) : Prop :=
  ∃ t g y, tensors[o.tensor]? = some t ∧ t.groups[o.slot]? = some g ∧
    (y ∈ g.creators ∨ y ∈ g.annihilators) ∧ y.space = x.space ∧ y.id = x.id ∧ y.role = x.role

/-- Where a slot stands: slots are ordered by their tensors and, within a tensor, by number. -/
def position (o : Origin) : ℕ ×ₗ ℕ := toLex (o.tensor, o.slot)

theorem position_inj {p : Origin} : o.position = p.position ↔ o = p := by
  rw [position, position, toLex_inj, Prod.mk.injEq, mk.injEq]

theorem hasKey_iff {g : Group} :
    g.HasKey x.key ↔ ∃ y, (y ∈ g.creators ∨ y ∈ g.annihilators) ∧
      y.space = x.space ∧ y.id = x.id ∧ y.role = x.role := by
  rw [Group.HasKey, List.mem_map]
  simp only [Ladder.entries, List.mem_append, Index.key, Key.mk.injEq]

theorem carries_iff : Carries tensors o x ↔ ∃ g, (g, o) ∈ slots tensors ∧ g.HasKey x.key := by
  simp only [mem_slots_iff, hasKey_iff]
  constructor
  · rintro ⟨t, g, y, ht, hg, hy⟩
    exact ⟨g, ⟨t, ht, hg⟩, y, hy⟩
  · rintro ⟨g, ⟨t, ht, hg⟩, y, hy⟩
    exact ⟨t, g, y, ht, hg, hy⟩

/-- **Slots are looked through in order.** -/
theorem slots_pairwise (tensors : List Tensor) :
    (slots tensors).Pairwise fun p q => p.2.position < q.2.position := by
  have hindex {α : Type} (xs : List α) : xs.zipIdx.Pairwise fun p q => p.2 < q.2 := by
    rw [← List.pairwise_map (R := (· < ·)), List.zipIdx_map_snd]
    exact List.pairwise_lt_range'
  rw [slots, List.pairwise_flatMap]
  constructor
  · rintro ⟨t, i⟩ -
    rw [List.pairwise_map]
    refine (hindex t.groups).imp fun hlt => ?_
    exact Prod.Lex.toLex_lt_toLex.mpr (.inr ⟨rfl, hlt⟩)
  · refine (hindex tensors).imp fun hlt p hp q hq => ?_
    obtain ⟨-, -, rfl⟩ := List.mem_map.mp hp
    obtain ⟨-, -, rfl⟩ := List.mem_map.mp hq
    exact Prod.Lex.toLex_lt_toLex.mpr (.inl hlt)

theorem of?_eq_none_iff_carries : of? tensors x = none ↔ ∀ o, ¬ Carries tensors o x := by
  rw [of?_eq_find?, Option.map_eq_none_iff, List.find?_eq_none]
  simp only [decide_eq_true_eq, carries_iff, not_exists, not_and, Prod.forall]
  exact forall_comm

/-- The slot that is found carries the index, and no other one that does stands before it. -/
theorem first_of_of? (h : of? tensors x = some o) :
    Carries tensors o x ∧ ∀ p, Carries tensors p x → o.position ≤ p.position := by
  rw [of?_eq_find?] at h
  obtain ⟨⟨g, o⟩, hfind, rfl⟩ := Option.map_eq_some_iff.mp h
  obtain ⟨hkey, before, behind, hslots, hbefore⟩ := List.find?_eq_some_iff_append.mp hfind
  have hordered := slots_pairwise tensors
  rw [hslots, List.pairwise_append, List.pairwise_cons] at hordered
  refine ⟨carries_iff.mpr ⟨g, ?_, of_decide_eq_true hkey⟩, fun p hp => ?_⟩
  · rw [hslots]
    exact List.mem_append_right _ List.mem_cons_self
  · obtain ⟨g', hmem, hkey'⟩ := carries_iff.mp hp
    rw [hslots, List.mem_append, List.mem_cons] at hmem
    rcases hmem with hmem | heq | hmem
    · -- the search has passed this slot
      exact absurd hkey' (by simpa using hbefore _ hmem)
    · rw [(Prod.mk.inj heq).2]
    · exact (hordered.2.1.1 _ hmem).le

/-! ### The table of all keys -/

/-- A table after the indices of a slot have been entered. -/
def enterSlot (table : Table Key Origin) (o : Origin) (g : Group) : Table Key Origin :=
  (g.creators ++ g.annihilators).foldl (fun table x => table.enter x.key o) table

/-- A table after the slots of a tensor have been entered, one after another. -/
def enterTensor (table : Table Key Origin) (i : Nat) (t : Tensor) : Table Key Origin :=
  t.groups.zipIdx.foldl (fun table (g, j) => enterSlot table ⟨i, j⟩ g) table

/-- The slot of each key: the tensors are entered one after another, and a key keeps the first slot
that it is entered with. -/
def firstSlots (tensors : List Tensor) : Table Key Origin :=
  tensors.zipIdx.foldl (fun table (t, i) => enterTensor table i t) .empty

theorem enterSlot_eq_fill (table : Table Key Origin) (o : Origin) (g : Group) :
    enterSlot table o g = table.fill (g.entries.map fun x => (x.key, o)) := by
  rw [enterSlot, Table.fill, List.foldl_map]
  rfl

theorem enterTensor_eq_fill (table : Table Key Origin) (i : Nat) (t : Tensor) :
    enterTensor table i t =
      table.fill
        (t.groups.zipIdx.flatMap fun (g, j) => g.entries.map fun x => (x.key, ⟨i, j⟩)) := by
  simp only [enterTensor, enterSlot_eq_fill, Table.fill, List.foldl_flatMap]

/-- **The table is filled with the entries of all slots in order.** -/
theorem firstSlots_eq_fill (tensors : List Tensor) :
    firstSlots tensors = Table.empty.fill (table tensors) := by
  simp only [firstSlots, enterTensor_eq_fill, Table.fill, table, List.foldl_flatMap]

theorem firstSlots_key (tensors : List Tensor) (x : Index) :
    firstSlots tensors x.key = of? tensors x := by
  rw [firstSlots_eq_fill, Table.fill_apply]
  exact Option.none_or

/-! ### Both ways -/

/-- **The origin of an index is the first slot that carries it**, in the order of tensors and slots.
There is none exactly if no slot carries it, and filling a table finds the same. -/
theorem of?_iff_first (tensors : List Tensor) (x : Index) :
    (∀ o, of? tensors x = some o ↔
      Carries tensors o x ∧ ∀ p, Carries tensors p x → o.position ≤ p.position) ∧
    (of? tensors x = none ↔ ∀ o, ¬ Carries tensors o x) ∧
    firstSlots tensors x.key = of? tensors x := by
  refine ⟨fun o => ⟨first_of_of?, fun h => ?_⟩, of?_eq_none_iff_carries, firstSlots_key tensors x⟩
  obtain ⟨hcarries, hfirst⟩ := h
  cases hfound : of? tensors x with
  | none => exact absurd hcarries (of?_eq_none_iff_carries.mp hfound o)
  | some p =>
    -- each of the two stands before the other
    obtain ⟨hcarries', hfirst'⟩ := first_of_of? hfound
    rw [position_inj.mp (le_antisymm (hfirst p hcarries') (hfirst' o hcarries))]

end TensorContraction.Origin
