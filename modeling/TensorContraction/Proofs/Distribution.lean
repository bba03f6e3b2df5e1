import Mathlib.Data.List.Perm.Basic
import TensorContraction.Contraction.Canonical
import TensorContraction.Proofs.Arrangement

/-!
# Dealing indices out to places

A pool of indices is dealt out to places, the vertices of the product or the slots of
the result: each place takes the indices that name it and arranges them by its
signature.  No place looks at another, so an index that names no place at all would go
unnoticed.  What rules this out is that the signatures ask for as many indices as the
pool has.

## Main definitions

* `held` — the indices of a role that a pool holds for a place.
* `Group.Carries` — a group carries what a pool holds for its place, arranged.

## Main results

* `Group.ofIndices_eq_ok_iff`, `Group.exists_carries_iff` — the group of a place, and when
  there is one.
* `all_placed_iff` — counting decides whether every index names a place.
* `entries_perm_of_all_placed` — then the groups share out the pool.
-/

namespace TensorContraction

/-! ### What a pool holds for a place -/

/-- The indices of a role that a pool holds for a place, in order. -/
def held (pool : List Index) (place : Nat) (role : Role) : List Index :=
  pool.filter fun x => x.vertex == place && x.role == role

theorem mem_held {pool : List Index} {place : Nat} {role : Role} {x : Index} :
    x ∈ held pool place role ↔ x ∈ pool ∧ x.vertex = place ∧ x.role = role := by
  rw [held, List.mem_filter, Bool.and_eq_true, beq_iff_eq, beq_iff_eq]

/-- Sorting entries into the classes of some keys keeps the entries that have one of the
keys. -/
theorem flatMap_filter_perm {α κ : Type} [DecidableEq κ] (key : α → κ) {keys : List κ}
    (hkeys : keys.Nodup) (xs : List α) :
    (keys.flatMap fun k => xs.filter fun x => key x == k).Perm
      (xs.filter fun x => key x ∈ keys) := by
  induction keys with
  | nil => simp
  | cons k keys ih =>
    -- no later class takes what the first one takes
    obtain ⟨hk, hkeys⟩ := List.nodup_cons.mp hkeys
    rw [List.flatMap_cons]
    refine ((ih hkeys).append_left _).trans ?_
    -- split the entries with one of the keys by whether they have the first
    have hsplit := List.filter_append_perm (fun x => key x == k)
      (xs.filter fun x => key x ∈ k :: keys)
    rw [List.filter_filter, List.filter_filter] at hsplit
    refine (List.Perm.of_eq ?_).trans hsplit
    congr 1
    · refine List.filter_congr fun x _ => ?_
      by_cases hx : key x = k <;> simp [hx]
    · refine List.filter_congr fun x _ => ?_
      by_cases hx : key x = k
      · simp [hx, hk]
      · simp [hx]

theorem held_append_perm (pool : List Index) (place : Nat) :
    (held pool place .creator ++ held pool place .annihilator).Perm
      (pool.filter fun x => x.vertex == place) := by
  have h := List.filter_append_perm (fun x : Index => x.role == .creator)
    (pool.filter fun x => x.vertex == place)
  rw [List.filter_filter, List.filter_filter] at h
  refine (List.Perm.of_eq ?_).trans h
  unfold held
  congr 1
  · exact List.filter_congr fun x _ => Bool.and_comm _ _
  · refine List.filter_congr fun x _ => ?_
    cases hr : x.role <;> simp

theorem flatMap_held_perm {places : List Nat} (hplaces : places.Nodup) (pool : List Index) :
    (places.flatMap fun p => held pool p .creator ++ held pool p .annihilator).Perm
      (pool.filter fun x => x.vertex ∈ places) :=
  (List.Perm.flatMap_left places fun p _ => held_append_perm pool p).trans
    (flatMap_filter_perm (·.vertex) hplaces pool)

/-! ### The group of a place -/

theorem Ladder.mem_entries_iff {α : Type} {l : Ladder α} {a : α} :
    a ∈ l.entries ↔ ∃ role, a ∈ l.on role := by
  rw [Ladder.entries, List.mem_append]
  constructor
  · intro h
    rcases h with h | h
    · exact ⟨.creator, h⟩
    · exact ⟨.annihilator, h⟩
  · intro h
    obtain ⟨role, h⟩ := h
    cases role with
    | creator => exact .inl h
    | annihilator => exact .inr h

namespace Group

/-- The indices of a role in the order of the signature: a group keeps its annihilators
backwards. -/
def inOrder (g : Group) : Role → List Index
  | .creator => g.creators
  | .annihilator => g.annihilators.reverse

/-- A group carries exactly what a pool holds for a place, arranged by the signature of
the place. -/
structure Carries (g : Group) (place : Nat) (signature : Signature) (pool : List Index) :
    Prop where
  /-- Nothing that names the place is lost, nothing else is added. -/
  perm : ∀ role, (g.on role).Perm (held pool place role)
  /-- The spaces are the declared ones, place by place. -/
  spaces_eq : ∀ role, (g.inOrder role).map (·.space) = signature.on role
  /-- Indices of one space stand in the order of the pool. -/
  stable : ∀ role s, ofSpace s (g.inOrder role) = ofSpace s (held pool place role)

variable {place : Nat} {signature : Signature} {pool : List Index} {g : Group}

theorem inOrder_perm (g : Group) (role : Role) : (g.inOrder role).Perm (g.on role) := by
  cases role with
  | creator => exact .refl _
  | annihilator => exact List.reverse_perm _

theorem carries_iff :
    g.Carries place signature pool ↔
      ∀ role, Arranged (held pool place role) (signature.on role) (g.inOrder role) := by
  constructor
  · intro h role
    exact ⟨h.spaces_eq role, h.stable role⟩
  · intro h
    exact ⟨fun role => (g.inOrder_perm role).symm.trans (h role).perm,
      fun role => (h role).spaces_eq, fun role => (h role).stable⟩

theorem string_eq_ok_iff {role : Role} {ordered : List Index} :
    string place signature pool role = .ok ordered ↔
      Arranged (held pool place role) (signature.on role) ordered := by
  rw [string, Check.mapError_eq_ok_iff, arrange_eq_ok_iff]
  rfl

/-- **The group of a place carries what the pool holds for it.** -/
theorem ofIndices_eq_ok_iff :
    ofIndices place signature pool = .ok g ↔ g.Carries place signature pool := by
  unfold ofIndices
  simp only [Check.bind_eq_ok_iff, Check.pure_eq_ok_iff, string_eq_ok_iff]
  rw [carries_iff]
  constructor
  · intro h role
    obtain ⟨creators, hc, annihilators, ha, rfl⟩ := h
    cases role with
    | creator => exact hc
    | annihilator => rwa [inOrder, List.reverse_reverse]
  · intro h
    refine ⟨_, h .creator, _, h .annihilator, ?_⟩
    rw [inOrder, inOrder, List.reverse_reverse]

theorem exists_carries_iff :
    (∃ g : Group, g.Carries place signature pool) ↔
      ∀ role, ((held pool place role).map (·.space)).Perm (signature.on role) := by
  simp only [carries_iff]
  constructor
  · intro h role
    obtain ⟨g, h⟩ := h
    exact exists_arranged_iff.mp ⟨_, h role⟩
  · intro h
    obtain ⟨creators, hc⟩ := exists_arranged_iff.mpr (h .creator)
    obtain ⟨annihilators, ha⟩ := exists_arranged_iff.mpr (h .annihilator)
    refine ⟨⟨creators, annihilators.reverse⟩, fun role => ?_⟩
    cases role with
    | creator => exact hc
    | annihilator => rwa [inOrder, List.reverse_reverse]

namespace Carries

theorem mem_iff (h : g.Carries place signature pool) {role : Role} {x : Index} :
    x ∈ g.on role ↔ x ∈ pool ∧ x.vertex = place ∧ x.role = role := by
  rw [(h.perm role).mem_iff, mem_held]

theorem entries_perm (h : g.Carries place signature pool) :
    g.entries.Perm (held pool place .creator ++ held pool place .annihilator) :=
  (h.perm .creator).append (h.perm .annihilator)

theorem length_entries (h : g.Carries place signature pool) :
    g.entries.length = signature.entries.length := by
  have hlen (role : Role) : (g.on role).length = (signature.on role).length := by
    rw [← h.spaces_eq, List.length_map, (g.inOrder_perm role).length_eq]
  have hc := hlen .creator
  have ha := hlen .annihilator
  rw [Ladder.on_creator, Ladder.on_creator] at hc
  rw [Ladder.on_annihilator, Ladder.on_annihilator] at ha
  rw [Ladder.entries, Ladder.entries, List.length_append, List.length_append, hc, ha]

end Carries
end Group

/-! ### All places together -/

section Places

variable {ι : Type} {place : ι → Nat} {signature : ι → Signature} {is : List ι}
  {groups : List Group} {pool : List Index}

/-- The groups share out the indices that name a place. -/
theorem flatMap_entries_perm (hplaces : (is.map place).Nodup)
    (h : List.Forall₂ (fun i g => Group.Carries g (place i) (signature i) pool) is groups) :
    (groups.flatMap (·.entries)).Perm (pool.filter fun x => x.vertex ∈ is.map place) := by
  refine List.Perm.trans ?_ (flatMap_held_perm hplaces pool)
  clear hplaces
  induction h with
  | nil => exact .refl _
  | cons hg _ ih =>
    rw [List.flatMap_cons, List.map_cons, List.flatMap_cons]
    exact hg.entries_perm.append ih

theorem length_flatMap_entries
    (h : List.Forall₂ (fun i g => Group.Carries g (place i) (signature i) pool) is groups) :
    (groups.flatMap (·.entries)).length = (is.flatMap fun i => (signature i).entries).length := by
  induction h with
  | nil => rfl
  | cons hg _ ih =>
    rw [List.flatMap_cons, List.flatMap_cons, List.length_append, List.length_append,
      hg.length_entries, ih]

/-- **Counting decides whether every index names a place.**  The groups hold the indices
that do, and as many as the signatures ask for. -/
theorem all_placed_iff (hplaces : (is.map place).Nodup)
    (h : List.Forall₂ (fun i g => Group.Carries g (place i) (signature i) pool) is groups) :
    (is.flatMap fun i => (signature i).entries).length = pool.length ↔
      ∀ x ∈ pool, x.vertex ∈ is.map place := by
  rw [← length_flatMap_entries h, (flatMap_entries_perm hplaces h).length_eq,
    List.length_filter_eq_length_iff]
  simp only [decide_eq_true_eq]

theorem entries_perm_of_all_placed (hplaces : (is.map place).Nodup)
    (h : List.Forall₂ (fun i g => Group.Carries g (place i) (signature i) pool) is groups)
    (hall : ∀ x ∈ pool, x.vertex ∈ is.map place) :
    (groups.flatMap (·.entries)).Perm pool := by
  refine (flatMap_entries_perm hplaces h).trans (List.Perm.of_eq ?_)
  rw [List.filter_eq_self]
  simpa using hall

end Places
end TensorContraction
