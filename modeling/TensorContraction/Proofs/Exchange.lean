import Mathlib.Data.List.Zip
import TensorContraction.Antisymmetry.Symmetrization
import TensorContraction.Proofs.Canonical

/-!
# The exchangeable pairs of a contraction

A role exchanges two external indices if they stand in one slot of the result, run over
one space and come from different slots of the product.  The pairs are looked up slot by
slot in the groups of the result and thrown together for the whole result.  Since the
groups hold the external indices, each in the slot it names, this finds exactly the
exchangeable pairs, also where two slots carry indices of one key.

## Main definitions

* `Contraction.externals` — the external indices of a slot, a role and a space.
* `Contraction.Exchanges` — two indices that a role exchanges.
* `Contraction.ResultDealt` — the groups of the result hold the external indices.
* `Symmetrization.Finds` — the pairs of a result, slot by slot.
* `Symmetrization.Needs` — a contraction needs a symmetrization.

## Main results

* `Contraction.resultDealt_of_ofRecord` — what record a contraction comes from does not
  matter.
* `Symmetrization.ofContraction_eq_ok_iff` — symmetrizing computes what a contraction needs.
* `Symmetrization.Finds.mem_iff` — the pairs it finds are the exchangeable ones.
* `Symmetrization.exists_finds_iff` — when it finds pairs at all.
-/

namespace TensorContraction

/-! ### External indices -/

namespace Contraction

/-- The external indices of a slot of the result, a role and a space, in export order. -/
def externals (c : Contraction) (slot : Nat) (role : Role) (s : Space) : List Index :=
  ofSpace s (held c.externalIndices slot role)

theorem mem_externals {c : Contraction} {slot : Nat} {role : Role} {s : Space} {x : Index} :
    x ∈ c.externals slot role s ↔
      x ∈ c.externalIndices ∧ x.vertex = slot ∧ x.role = role ∧ x.space = s := by
  rw [externals, ofSpace, List.mem_filter, mem_held, beq_iff_eq, and_assoc, and_assoc]

/-- Two external indices that a role exchanges. -/
def Exchanges (c : Contraction) (role : Role) (x y : Index) : Prop :=
  ∃ slot s, x ∈ c.externals slot role s ∧ y ∈ c.externals slot role s ∧
    Origin.of? c.tensors x ≠ Origin.of? c.tensors y

/-- The groups of the result hold the external indices, each in the slot it names. -/
structure ResultDealt (c : Contraction) : Prop where
  /-- A group holds the indices that name its slot. -/
  mem_iff : ∀ p ∈ c.result.groups.zipIdx, ∀ role x,
    x ∈ p.1.on role ↔ x ∈ held c.externalIndices p.2 role
  /-- Each index names a slot. -/
  placed : ∀ x ∈ c.externalIndices, ∃ g, (g, x.vertex) ∈ c.result.groups.zipIdx

/-- A group of the result carries the indices of the slot with its number. -/
theorem exists_carries_of_ofRecord {r : Record} {c : Contraction} (h : ofRecord r = .ok c)
    {g : Group} {i : Nat} (hgi : c.result.groups[i]? = some g) :
    ∃ signature, Group.Carries g i signature c.externalIndices := by
  obtain ⟨vs, hy⟩ := ofRecord_eq_ok_iff.mp h
  obtain ⟨hi, rfl⟩ := List.getElem?_eq_some_iff.mp hgi
  obtain ⟨hlen, hget⟩ := List.forall₂_iff_get.mp hy.resultGroups
  have hg := hget i (hlen ▸ hi) hi
  simp only [List.get_eq_getElem, List.getElem_zipIdx, Nat.zero_add] at hg
  exact ⟨_, hg⟩

theorem resultDealt_of_ofRecord {r : Record} {c : Contraction} (h : ofRecord r = .ok c) :
    c.ResultDealt := by
  obtain ⟨vs, hy⟩ := ofRecord_eq_ok_iff.mp h
  constructor
  case mem_iff =>
    rintro ⟨g, i⟩ hgi role x
    obtain ⟨signature, hg⟩ := exists_carries_of_ofRecord h (List.mem_zipIdx_iff_getElem?.mp hgi)
    rw [hg.mem_iff, mem_held]
  case placed =>
    intro x hx
    obtain ⟨g, hg, hxg⟩ := List.mem_flatMap.mp (hy.resultEntries_perm.mem_iff.mpr hx)
    obtain ⟨i, hi⟩ := List.mem_iff_getElem?.mp hg
    obtain ⟨signature, hcarried⟩ := exists_carries_of_ofRecord h hi
    -- the group that carries the index is that of the slot it names
    obtain ⟨role, hrole⟩ := Ladder.mem_entries_iff.mp hxg
    obtain ⟨-, rfl, -⟩ := hcarried.mem_iff.mp hrole
    exact ⟨g, List.mem_zipIdx_iff_getElem?.mpr hi⟩

end Contraction

/-! ### Pairs -/

namespace Symmetrization

variable {tensors : List Tensor} {slot : Nat} {role : Role} {xs : List Index}
  {ps : List (Index × Index)} {x y : Index}

theorem locate_eq_ok_iff {l : Index × Origin} :
    locate tensors role x = .ok l ↔ l.1 = x ∧ Origin.of? tensors x = some l.2 := by
  unfold locate
  split
  · next o ho =>
    rw [Except.ok.injEq, ho, Option.some_inj, Prod.ext_iff]
    exact and_congr_left fun _ => eq_comm
  · next hnone => simp [hnone]

theorem mem_exchangeable_cons {z : Index} {q : Origin} {rest : List (Index × Origin)} :
    (x, y) ∈ exchangeable ((z, q) :: rest) ↔
      (x = z ∧ ∃ p, (y, p) ∈ rest ∧ x.space = y.space ∧ q ≠ p) ∨ (x, y) ∈ exchangeable rest := by
  rw [exchangeable, List.mem_append]
  refine or_congr_left ?_
  rw [List.mem_filterMap]
  constructor
  · intro h
    obtain ⟨⟨w, p⟩, hw, hpair⟩ := h
    obtain ⟨hwp, heq⟩ := Option.ite_none_right_eq_some.mp hpair
    obtain ⟨rfl, rfl⟩ := Prod.ext_iff.mp (Option.some.inj heq)
    exact ⟨rfl, p, hw, hwp⟩
  · rintro ⟨rfl, p, hp, hyp⟩
    exact ⟨(y, p), hp, if_pos hyp⟩

/-- Each pair is listed in one direction, that of the list. -/
theorem mem_exchangeable_iff {located : List (Index × Origin)} :
    (x, y) ∈ exchangeable located ∨ (y, x) ∈ exchangeable located ↔
      ∃ o p, (x, o) ∈ located ∧ (y, p) ∈ located ∧ x.space = y.space ∧ o ≠ p := by
  induction located with
  | nil => simp [exchangeable]
  | cons l rest ih =>
    obtain ⟨z, q⟩ := l
    rw [mem_exchangeable_cons, mem_exchangeable_cons]
    constructor
    · intro h
      rcases h with (⟨rfl, p, hp, hspace, hne⟩ | hxy) | ⟨rfl, p, hp, hspace, hne⟩ | hyx
      · exact ⟨q, p, List.mem_cons_self, List.mem_cons_of_mem _ hp, hspace, hne⟩
      · obtain ⟨o, p, ho, hp, h⟩ := ih.mp (.inl hxy)
        exact ⟨o, p, List.mem_cons_of_mem _ ho, List.mem_cons_of_mem _ hp, h⟩
      · exact ⟨p, q, List.mem_cons_of_mem _ hp, List.mem_cons_self, hspace.symm, hne.symm⟩
      · obtain ⟨o, p, ho, hp, h⟩ := ih.mp (.inr hyx)
        exact ⟨o, p, List.mem_cons_of_mem _ ho, List.mem_cons_of_mem _ hp, h⟩
    · intro hxy
      obtain ⟨o, p, hxo, hyp, hspace, hne⟩ := hxy
      rcases List.mem_cons.mp hxo with hx | hx
      · obtain ⟨rfl, rfl⟩ : x = z ∧ o = q := Prod.ext_iff.mp hx
        rcases List.mem_cons.mp hyp with hy | hy
        · -- the entry itself has one origin only
          exact absurd (Prod.ext_iff.mp hy).2.symm hne
        · exact .inl (.inl ⟨rfl, p, hy, hspace, hne⟩)
      · rcases List.mem_cons.mp hyp with hy | hy
        · obtain ⟨rfl, rfl⟩ : y = z ∧ p = q := Prod.ext_iff.mp hy
          exact .inr (.inl ⟨rfl, o, hx, hspace.symm, hne.symm⟩)
        · exact (ih.mpr ⟨o, p, hx, hy, hspace, hne⟩).imp .inr .inr

theorem mixed_iff : mixed xs = true ↔ ∃ x ∈ xs, ∃ y ∈ xs, x.space ≠ y.space := by
  cases xs with
  | nil => simp [mixed]
  | cons z zs =>
    rw [mixed, List.any_eq_true]
    constructor
    · intro h
      obtain ⟨y, hy, hne⟩ := h
      exact ⟨y, List.mem_cons_of_mem _ hy, z, List.mem_cons_self, by simpa using hne⟩
    · intro h
      obtain ⟨x, hx, y, hy, hne⟩ := h
      -- one of the two differs from the first
      by_cases hxz : x.space = z.space
      · have hyz : y ≠ z := fun hyz => hne (hxz.trans (congrArg Index.space hyz.symm))
        refine ⟨y, (List.mem_cons.mp hy).resolve_left hyz, ?_⟩
        simpa [← hxz] using hne.symm
      · have hne : x ≠ z := fun hxz' => hxz (congrArg Index.space hxz')
        exact ⟨x, (List.mem_cons.mp hx).resolve_left hne, by simpa using hxz⟩

theorem pairs_eq_ok_iff :
    pairs tensors slot role xs = .ok ps ↔
      ∃ located : List (Index × Origin),
        List.Forall₂ (fun x l => l.1 = x ∧ Origin.of? tensors x = some l.2) xs located ∧
          (mixed xs → xs.length ≤ 2) ∧ exchangeable located = ps := by
  unfold pairs
  simp only [Check.bind_eq_ok_iff, Check.mapM_eq_ok_iff, locate_eq_ok_iff]
  refine exists_congr fun located => and_congr_right fun _ => ?_
  split
  · next h =>
    rw [Bool.and_eq_true, decide_eq_true_eq] at h
    refine iff_of_false (by simp) fun hsmall => ?_
    exact absurd (hsmall.1 h.1) (Nat.not_le.mpr h.2)
  · next h =>
    rw [Bool.and_eq_true, decide_eq_true_eq, not_and, Nat.not_lt] at h
    rw [Check.pure_eq_ok_iff, and_iff_right h]

/-- The pairs among some indices, found if all of them have an origin. -/
theorem mem_pairs_iff (h : pairs tensors slot role xs = .ok ps) :
    (x, y) ∈ ps ∨ (y, x) ∈ ps ↔
      x ∈ xs ∧ y ∈ xs ∧ x.space = y.space ∧ Origin.of? tensors x ≠ Origin.of? tensors y := by
  obtain ⟨located, hlocated, -, rfl⟩ := pairs_eq_ok_iff.mp h
  -- what has been located are the indices, each with its one origin
  have hmem (z : Index) (o : Origin) :
      (z, o) ∈ located ↔ z ∈ xs ∧ Origin.of? tensors z = some o := by
    constructor
    · intro hz
      obtain ⟨w, hw, heq, ho⟩ := Check.exists_left_of_forall₂ hlocated hz
      obtain rfl : z = w := heq
      exact ⟨hw, ho⟩
    · intro hz
      obtain ⟨hz, ho⟩ := hz
      obtain ⟨⟨w, p⟩, hw, heq, hp⟩ := Check.exists_right_of_forall₂ hlocated hz
      obtain rfl : w = z := heq
      obtain rfl : o = p := Option.some.inj (ho.symm.trans hp)
      exact hw
  rw [mem_exchangeable_iff]
  constructor
  · intro hxy
    obtain ⟨o, p, ho, hp, hspace, hne⟩ := hxy
    rw [hmem] at ho hp
    refine ⟨ho.1, hp.1, hspace, ?_⟩
    rw [ho.2, hp.2]
    exact fun heq => hne (Option.some.inj heq)
  · intro hxy
    obtain ⟨hx, hy, hspace, hne⟩ := hxy
    obtain ⟨⟨_, o⟩, ho, rfl, hxo⟩ := Check.exists_right_of_forall₂ hlocated hx
    obtain ⟨⟨_, p⟩, hp, rfl, hyp⟩ := Check.exists_right_of_forall₂ hlocated hy
    refine ⟨o, p, ho, hp, hspace, ?_⟩
    rintro rfl
    exact hne (hxo.trans hyp.symm)

/-- Pairs are looked for only among indices that all have an origin. -/
theorem exists_origin_of_pairs (h : pairs tensors slot role xs = .ok ps) (hx : x ∈ xs) :
    ∃ o, Origin.of? tensors x = some o := by
  obtain ⟨located, hlocated, -, -⟩ := pairs_eq_ok_iff.mp h
  obtain ⟨⟨_, o⟩, -, -, ho⟩ := Check.exists_right_of_forall₂ hlocated hx
  exact ⟨o, ho⟩

theorem slotPairs_eq_ok_iff {g : Group} {l : Ladder (Index × Index)} :
    slotPairs tensors slot g = .ok l ↔
      ∀ role, pairs tensors slot role (g.on role) = .ok (l.on role) := by
  unfold slotPairs
  simp only [Check.bind_eq_ok_iff, Check.pure_eq_ok_iff]
  constructor
  · intro h role
    obtain ⟨creators, hc, annihilators, ha, rfl⟩ := h
    cases role with
    | creator => exact hc
    | annihilator => exact ha
  · intro h
    exact ⟨_, h .creator, _, h .annihilator, rfl⟩

/-! ### The symmetrization of a contraction -/

/-- The pairs of each slot of a result, role by role. -/
def Finds (c : Contraction) (found : List (Ladder (Index × Index))) : Prop :=
  List.Forall₂ (fun p l => ∀ role, pairs c.tensors p.2 role (p.1.on role) = .ok (l.on role))
    c.result.groups.zipIdx found

/-- A contraction needs a symmetrization, with these pairs found slot by slot on the way. -/
structure Needs (c : Contraction) (found : List (Ladder (Index × Index))) (s : Symmetrization) :
    Prop where
  /-- The pairs of a role are looked for in each slot of the result. -/
  pairs : Finds c found
  /-- The pairs of all slots form the groups of a role. -/
  groups_eq : ∀ role, s.groups.on role = groupsOf (found.flatMap (·.on role))
  /-- Listing the indices of a slot implies a symmetrization over all of them. -/
  implied_eq : s.implied = orders (c.result.groups.flatMap fun g => [g.creators, g.annihilators])
  /-- Each group requires a symmetrization over its members. -/
  required_eq : s.required = orders s.groups.entries
  /-- No more is required than implied. -/
  required_le : s.required ≤ s.implied
  /-- What is implied exceeds what is required by a whole factor. -/
  required_dvd : s.required ∣ s.implied

/-- **Symmetrizing computes what a contraction needs.** -/
theorem build_eq_ok_iff {c : Contraction} {s : Symmetrization} :
    build c = .ok s ↔ ∃ found, Needs c found s := by
  unfold build
  simp only [Check.bind_eq_ok_iff, Check.mapM_eq_ok_iff, slotPairs_eq_ok_iff]
  refine exists_congr fun found => ?_
  constructor
  · intro h
    obtain ⟨hfound, hratio⟩ := h
    split at hratio
    · simp at hratio
    · next hguard =>
      rw [not_or, Nat.not_lt, not_not] at hguard
      obtain rfl := Check.pure_eq_ok_iff.mp hratio
      refine ⟨hfound, ?_, rfl, rfl, hguard.1, Nat.dvd_of_mod_eq_zero hguard.2⟩
      intro role
      cases role with
      | creator => rfl
      | annihilator => rfl
  · intro h
    have hgroups : (⟨groupsOf (found.flatMap (·.creators)),
        groupsOf (found.flatMap (·.annihilators))⟩ : Ladder (List Index)) = s.groups :=
      congrArg₂ Ladder.mk (h.groups_eq .creator).symm (h.groups_eq .annihilator).symm
    refine ⟨h.pairs, ?_⟩
    rw [hgroups, ← h.required_eq, ← h.implied_eq, if_neg]
    · rfl
    · rw [not_or, Nat.not_lt, not_not]
      exact ⟨h.required_le, Nat.mod_eq_zero_of_dvd h.required_dvd⟩

theorem ofContraction_eq_ok_iff {c : Contraction} {s : Symmetrization} :
    ofContraction c = .ok s ↔ ∃ found, Needs c found s := by
  rw [ofContraction, Check.mapError_eq_ok_iff, build_eq_ok_iff]

section Found

variable {c : Contraction} {found : List (Ladder (Index × Index))}

/-- **The pairs that are found are the exchangeable ones.** -/
theorem Finds.mem_iff (h : Finds c found) (hdealt : c.ResultDealt) :
    (x, y) ∈ found.flatMap (·.on role) ∨ (y, x) ∈ found.flatMap (·.on role) ↔
      c.Exchanges role x y := by
  rw [List.mem_flatMap, List.mem_flatMap, ← exists_or]
  simp only [← and_or_left]
  constructor
  · intro hxy
    obtain ⟨l, hl, hxy⟩ := hxy
    obtain ⟨⟨g, i⟩, hgi, hpairs⟩ := Check.exists_left_of_forall₂ h hl
    obtain ⟨hx, hy, hspace, hne⟩ := (Symmetrization.mem_pairs_iff (hpairs role)).mp hxy
    rw [hdealt.mem_iff _ hgi, mem_held] at hx hy
    refine ⟨i, x.space, ?_, ?_, hne⟩
    · exact Contraction.mem_externals.mpr ⟨hx.1, hx.2.1, hx.2.2, rfl⟩
    · exact Contraction.mem_externals.mpr ⟨hy.1, hy.2.1, hy.2.2, hspace.symm⟩
  · intro hxy
    obtain ⟨slot, space, hx, hy, hne⟩ := hxy
    obtain ⟨hxc, rfl, hxr, rfl⟩ := Contraction.mem_externals.mp hx
    obtain ⟨hyc, hyv, hyr, hys⟩ := Contraction.mem_externals.mp hy
    obtain ⟨g, hg⟩ := hdealt.placed x hxc
    obtain ⟨l, hl, hpairs⟩ := Check.exists_right_of_forall₂ h hg
    refine ⟨l, hl, (Symmetrization.mem_pairs_iff (hpairs role)).mpr ⟨?_, ?_, hys.symm, hne⟩⟩
    · exact (hdealt.mem_iff _ hg role x).mpr (mem_held.mpr ⟨hxc, rfl, hxr⟩)
    · exact (hdealt.mem_iff _ hg role y).mpr (mem_held.mpr ⟨hyc, hyv, hyr⟩)

/-- Each external index comes from some slot of the product. -/
theorem Finds.exists_origin (h : Finds c found) (hdealt : c.ResultDealt)
    (hx : x ∈ c.externalIndices) : ∃ o, Origin.of? c.tensors x = some o := by
  obtain ⟨g, hg⟩ := hdealt.placed x hx
  obtain ⟨l, -, hpairs⟩ := Check.exists_right_of_forall₂ h hg
  refine exists_origin_of_pairs (hpairs x.role) ?_
  exact (hdealt.mem_iff _ hg x.role x).mpr (mem_held.mpr ⟨hx, rfl, rfl⟩)

theorem exists_pairs_iff :
    (∃ ps, pairs tensors slot role xs = .ok ps) ↔
      (∀ x ∈ xs, ∃ o, Origin.of? tensors x = some o) ∧ (mixed xs → xs.length ≤ 2) := by
  simp only [pairs_eq_ok_iff]
  constructor
  · intro h
    obtain ⟨ps, located, hlocated, hmixed, -⟩ := h
    refine ⟨fun x hx => ?_, hmixed⟩
    obtain ⟨l, -, -, ho⟩ := Check.exists_right_of_forall₂ hlocated hx
    exact ⟨_, ho⟩
  · intro h
    obtain ⟨horigin, hmixed⟩ := h
    have hone : ∀ x ∈ xs, ∃ l : Index × Origin, l.1 = x ∧ Origin.of? tensors x = some l.2 := by
      intro x hx
      obtain ⟨o, ho⟩ := horigin x hx
      exact ⟨(x, o), rfl, ho⟩
    obtain ⟨located, hlocated⟩ := Check.exists_forall₂_iff.mpr hone
    exact ⟨_, located, hlocated, hmixed, rfl⟩

/-- A pair of strings can be chosen string by string. -/
theorem exists_ladder_iff {α : Type} {p : Role → List α → Prop} :
    (∃ l : Ladder α, ∀ role, p role (l.on role)) ↔ ∀ role, ∃ xs, p role xs := by
  constructor
  · intro h role
    obtain ⟨l, hl⟩ := h
    exact ⟨_, hl role⟩
  · intro h
    obtain ⟨creators, hc⟩ := h .creator
    obtain ⟨annihilators, ha⟩ := h .annihilator
    refine ⟨⟨creators, annihilators⟩, fun role => ?_⟩
    cases role with
    | creator => exact hc
    | annihilator => exact ha

/-- Pairs are found if every index of the result has an origin and no more than two indices of
a slot and a role run over several spaces. -/
theorem exists_finds_iff :
    (∃ found, Finds c found) ↔ ∀ g ∈ c.result.groups, ∀ role,
      (∀ x ∈ g.on role, ∃ o, Origin.of? c.tensors x = some o) ∧
        (mixed (g.on role) → (g.on role).length ≤ 2) := by
  have hladder (p : Group × Nat) :
      (∃ l : Ladder (Index × Index), ∀ role,
        pairs c.tensors p.2 role (p.1.on role) = .ok (l.on role)) ↔
          ∀ role, (∀ x ∈ p.1.on role, ∃ o, Origin.of? c.tensors x = some o) ∧
            (mixed (p.1.on role) → (p.1.on role).length ≤ 2) :=
    (exists_ladder_iff (p := fun role xs =>
      pairs c.tensors p.2 role (p.1.on role) = .ok xs)).trans
        (forall_congr' fun _ => exists_pairs_iff)
  unfold Finds
  simp only [Check.exists_forall₂_iff, hladder]
  constructor
  · intro h g hg
    obtain ⟨i, hi⟩ := List.mem_iff_getElem?.mp hg
    exact h (g, i) (List.mem_zipIdx_iff_getElem?.mpr hi)
  · intro h p hp
    exact h p.1 (List.fst_mem_of_mem_zipIdx hp)

end Found

end Symmetrization
end TensorContraction
