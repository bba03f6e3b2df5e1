import TensorContraction.Contraction.Canonical
import TensorContraction.Proofs.Check

/-!
# Reading the numbers of a record

A record writes every number counted from one.  Reading such a number, a row or an arc
succeeds exactly if it is the written form of some value, and then returns that value.

## Main definitions

* `Space.code`, `Role.code` — the numbers a record writes for spaces and roles.
* `Index.WrittenAs`, `Arc.WrittenAs` — the written form of an index and of an arc.
* `VertexRow.Writes`, `ResultRow.Writes` — the index that a row writes.

## Main results

* `Record.vertexIndex_eq_ok_iff`, `Record.externalIndex_eq_ok_iff`,
  `Record.arcOf_eq_ok_iff` — reading inverts writing.
* `Index.exists_writtenAs_iff`, `Arc.exists_writtenAs_iff` — which numbers are written
  forms.
* `Index.WrittenAs.unique`, `ResultRow.writes_leftUnique`, `Arc.writtenAs_leftUnique` —
  written forms and values determine each other.
-/

namespace TensorContraction

/-! ### Written forms -/

/-- The number a record writes for a space. -/
def Space.code (s : Space) : Int := s.number + 1

/-- The number a record writes for a role. -/
def Role.code (r : Role) : Int := r.number + 1

theorem Space.code_inj {s t : Space} : s.code = t.code ↔ s = t := by
  rw [← number_inj]
  unfold code
  omega

theorem Role.code_inj {r q : Role} : r.code = q.code ↔ r = q := by
  rw [← number_inj]
  unfold code
  omega

theorem Space.exists_eq_code_iff {v : Int} : (∃ s : Space, v = s.code) ↔ 1 ≤ v ∧ v ≤ 3 := by
  constructor
  · intro h
    obtain ⟨s, rfl⟩ := h
    cases s <;> decide
  · intro h
    obtain rfl | rfl | rfl : v = 1 ∨ v = 2 ∨ v = 3 := by omega
    · exact ⟨occupied, rfl⟩
    · exact ⟨virtual, rfl⟩
    · exact ⟨active, rfl⟩

theorem Role.exists_eq_code_iff {v : Int} : (∃ r : Role, v = r.code) ↔ 1 ≤ v ∧ v ≤ 2 := by
  constructor
  · intro h
    obtain ⟨r, rfl⟩ := h
    cases r <;> decide
  · intro h
    obtain rfl | rfl : v = 1 ∨ v = 2 := by omega
    · exact ⟨creator, rfl⟩
    · exact ⟨annihilator, rfl⟩

theorem exists_eq_succ_iff {v : Int} : (∃ n : Nat, v = n + 1) ↔ 1 ≤ v := by
  constructor
  · rintro ⟨n, rfl⟩
    omega
  · intro h
    exact ⟨(v - 1).toNat, by omega⟩

theorem succ_injective : Function.Injective fun n : Nat => (n : Int) + 1 := fun m n hmn => by
  have : (m : Int) + 1 = n + 1 := hmn
  omega

/-- The numbers a record writes for an index. -/
structure Index.WrittenAs (x : Index) (id space vertex role : Int) : Prop where
  /-- The number of the index. -/
  id_eq : id = x.id + 1
  /-- Its space. -/
  space_eq : space = x.space.code
  /-- The vertex, or the slot of the result, that carries it. -/
  vertex_eq : vertex = x.vertex + 1
  /-- Its role. -/
  role_eq : role = x.role.code

/-- The arc a record writes for an arc. -/
structure Arc.WrittenAs (a : Arc Nat) (written : Arc Int) : Prop where
  /-- The end the line leaves from. -/
  first_eq : written.first = a.first + 1
  /-- The end the line arrives at. -/
  second_eq : written.second = a.second + 1
  /-- The spaces along it. -/
  spaces_eq : written.spaces = a.spaces

/-- A row writes an index of a vertex; its arc has to be counted from one as well. -/
def VertexRow.Writes (row : VertexRow) (x : Index) : Prop :=
  1 ≤ row.arc ∧ x.WrittenAs row.id row.space row.vertex row.role

/-- A row writes an index of the result, whose slot it has to name twice. -/
def ResultRow.Writes (row : ResultRow) (x : Index) : Prop :=
  row.vertex = row.duplicate ∧ x.WrittenAs row.id row.space row.vertex row.role

theorem Index.exists_writtenAs_iff {id space vertex role : Int} :
    (∃ x : Index, x.WrittenAs id space vertex role) ↔
      1 ≤ id ∧ (1 ≤ space ∧ space ≤ 3) ∧ 1 ≤ vertex ∧ 1 ≤ role ∧ role ≤ 2 := by
  rw [← exists_eq_succ_iff, ← Space.exists_eq_code_iff, ← exists_eq_succ_iff,
    ← Role.exists_eq_code_iff]
  constructor
  · intro h
    obtain ⟨x, h⟩ := h
    exact ⟨⟨_, h.id_eq⟩, ⟨_, h.space_eq⟩, ⟨_, h.vertex_eq⟩, ⟨_, h.role_eq⟩⟩
  · intro h
    obtain ⟨⟨i, hi⟩, ⟨s, hs⟩, ⟨v, hv⟩, r, hr⟩ := h
    exact ⟨⟨i, s, v, r⟩, hi, hs, hv, hr⟩

theorem VertexRow.exists_writes_iff {row : VertexRow} :
    (∃ x, row.Writes x) ↔ 1 ≤ row.arc ∧ 1 ≤ row.id ∧ (1 ≤ row.space ∧ row.space ≤ 3) ∧
      1 ≤ row.vertex ∧ 1 ≤ row.role ∧ row.role ≤ 2 := by
  unfold Writes
  rw [exists_and_left, Index.exists_writtenAs_iff]

theorem ResultRow.exists_writes_iff {row : ResultRow} :
    (∃ x, row.Writes x) ↔ row.vertex = row.duplicate ∧ 1 ≤ row.id ∧
      (1 ≤ row.space ∧ row.space ≤ 3) ∧ 1 ≤ row.vertex ∧ 1 ≤ row.role ∧ row.role ≤ 2 := by
  unfold Writes
  rw [exists_and_left, Index.exists_writtenAs_iff]

theorem Arc.exists_writtenAs_iff {written : Arc Int} :
    (∃ a : Arc Nat, a.WrittenAs written) ↔ 1 ≤ written.first ∧ 1 ≤ written.second := by
  rw [← exists_eq_succ_iff, ← exists_eq_succ_iff]
  constructor
  · intro h
    obtain ⟨a, h⟩ := h
    exact ⟨⟨_, h.first_eq⟩, _, h.second_eq⟩
  · intro h
    obtain ⟨⟨m, hm⟩, n, hn⟩ := h
    exact ⟨⟨m, n, written.spaces⟩, hm, hn, rfl⟩

/-! ### What written forms determine -/

/-- No two indices are written alike. -/
theorem Index.WrittenAs.unique {x y : Index} {id space vertex role : Int}
    (hx : x.WrittenAs id space vertex role) (hy : y.WrittenAs id space vertex role) : x = y := by
  have hid : x.id = y.id := by
    have := hx.id_eq.symm.trans hy.id_eq
    omega
  have hspace := Space.code_inj.mp (hx.space_eq.symm.trans hy.space_eq)
  have hvertex : x.vertex = y.vertex := by
    have := hx.vertex_eq.symm.trans hy.vertex_eq
    omega
  have hrole := Role.code_inj.mp (hx.role_eq.symm.trans hy.role_eq)
  cases x
  cases y
  rw [mk.injEq]
  exact ⟨hid, hspace, hvertex, hrole⟩

/-- A row of the result is known by the index it writes. -/
theorem ResultRow.writes_leftUnique : Relator.LeftUnique Writes := by
  intro row row' x h h'
  obtain ⟨hslot, h⟩ := h
  obtain ⟨hslot', h'⟩ := h'
  have hvertex := h.vertex_eq.trans h'.vertex_eq.symm
  cases row
  cases row'
  rw [mk.injEq]
  exact ⟨hvertex, h.role_eq.trans h'.role_eq.symm, h.space_eq.trans h'.space_eq.symm,
    hslot.symm.trans (hvertex.trans hslot'), h.id_eq.trans h'.id_eq.symm⟩

/-- An arc is written in one way only. -/
theorem Arc.writtenAs_leftUnique :
    Relator.LeftUnique fun (w : Arc Int) (a : Arc Nat) => a.WrittenAs w := by
  intro w w' a h h'
  cases w
  cases w'
  rw [mk.injEq]
  exact ⟨h.first_eq.trans h'.first_eq.symm, h.second_eq.trans h'.second_eq.symm,
    h.spaces_eq.trans h'.spaces_eq.symm⟩

/-! ### Reading -/

namespace Record

open Check

theorem fromOne_eq_ok_iff {field : Field} {value : Int} {n : Nat} :
    fromOne field value = .ok n ↔ value = n + 1 := by
  unfold fromOne
  split
  · rw [Except.ok.injEq]
    omega
  · refine iff_of_false (by simp) ?_
    omega

theorem checkCount_eq_ok_iff {quantity : Quantity} {declared : Int} {actual : Nat} {u : Unit} :
    checkCount quantity declared actual = .ok u ↔ declared = actual := by
  unfold checkCount
  split
  · next h => simp [h]
  · next h => simp [h]

theorem spaceOf_eq_ok_iff {value : Int} {s : Space} : spaceOf value = .ok s ↔ value = s.code := by
  unfold spaceOf
  rw [bind_eq_ok_iff]
  constructor
  · intro h
    obtain ⟨n, hn, h⟩ := h
    split at h
    · next t ht =>
      rw [Except.ok.injEq] at h
      rw [fromOne_eq_ok_iff.mp hn, Space.ofNumber?_eq_some_iff.mp ht, h, Space.code]
    · simp at h
  · rintro rfl
    exact ⟨s.number, fromOne_eq_ok_iff.mpr rfl, by rw [Space.ofNumber?_eq_some_iff.mpr rfl]⟩

theorem roleOf_eq_ok_iff {value : Int} {r : Role} : roleOf value = .ok r ↔ value = r.code := by
  unfold roleOf
  rw [bind_eq_ok_iff]
  constructor
  · intro h
    obtain ⟨n, hn, h⟩ := h
    split at h
    · next q hq =>
      rw [Except.ok.injEq] at h
      rw [fromOne_eq_ok_iff.mp hn, Role.ofNumber?_eq_some_iff.mp hq, h, Role.code]
    · simp at h
  · rintro rfl
    exact ⟨r.number, fromOne_eq_ok_iff.mpr rfl, by rw [Role.ofNumber?_eq_some_iff.mpr rfl]⟩

theorem arcOf_eq_ok_iff {written : Arc Int} {a : Arc Nat} :
    arcOf written = .ok a ↔ a.WrittenAs written := by
  unfold arcOf
  simp only [bind_eq_ok_iff, pure_eq_ok_iff, fromOne_eq_ok_iff]
  constructor
  · intro h
    obtain ⟨m, hm, n, hn, rfl⟩ := h
    exact ⟨hm, hn, rfl⟩
  · intro h
    exact ⟨_, h.first_eq, _, h.second_eq, by rw [h.spaces_eq]⟩

/-- Both kinds of rows end in the same four numbers. -/
theorem index_eq_ok_iff {id space vertex role : Int} {x : Index} :
    (do return ⟨← fromOne .indexId id, ← spaceOf space, ← fromOne .vertexId vertex,
        ← roleOf role⟩ : Except Violation Index) = .ok x ↔ x.WrittenAs id space vertex role := by
  simp only [bind_eq_ok_iff, pure_eq_ok_iff, fromOne_eq_ok_iff, spaceOf_eq_ok_iff,
    roleOf_eq_ok_iff]
  constructor
  · intro h
    obtain ⟨i, hi, s, hs, v, hv, r, hr, rfl⟩ := h
    exact ⟨hi, hs, hv, hr⟩
  · intro h
    exact ⟨_, h.id_eq, _, h.space_eq, _, h.vertex_eq, _, h.role_eq, rfl⟩

theorem vertexIndex_eq_ok_iff {row : VertexRow} {x : Index} :
    vertexIndex row = .ok x ↔ row.Writes x := by
  unfold vertexIndex VertexRow.Writes
  rw [bind_eq_ok_iff, ← exists_eq_succ_iff]
  simp only [fromOne_eq_ok_iff, index_eq_ok_iff, exists_and_right]

theorem externalIndex_eq_ok_iff {position : Nat} {row : ResultRow} {x : Index} :
    externalIndex position row = .ok x ↔ row.Writes x := by
  unfold externalIndex ResultRow.Writes
  split
  · next h => simp [h]
  · next h => rw [index_eq_ok_iff, and_iff_right (not_not.mp h)]

end Record
end TensorContraction
