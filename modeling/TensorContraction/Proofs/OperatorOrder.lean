import Mathlib.Data.List.Perm.Basic
import TensorContraction.Proofs.Disjointness
import TensorContraction.Proofs.OriginPattern
import TensorContraction.Proofs.Renumbering

/-!
# The order of operators

The tensors of a product come by the numbers of their super-vertices, so other numbers may put
them in another order.  Every origin then changes, since an origin names a position among the
tensors.  If each external index has its key on one slot only, the order does not matter: an
index has that slot for its origin wherever its tensor stands, so that two indices have one
origin exactly if one group has both their keys.

## Main definitions

* `Contraction.OneCarrier` — the key of each external index is on one slot at most.
* `Record.renumberSuperVertices`, `Record.RenumbersSuperVertices` — other numbers for
  super-vertices.

## Main results

* `Origin.of?_eq_of?_iff` — with one carrier each, when two indices have one origin.
* `Contraction.exists_ofRecord_renumberSuperVertices` — the symmetrization is the same.
-/

namespace TensorContraction

/-! ### One carrier -/

/-- No more than one of some groups has a key. -/
def OneCarrier (groups : List Group) (k : Key) : Prop :=
  (groups.filter fun g => g.HasKey k).length ≤ 1

instance (groups : List Group) (k : Key) : Decidable (OneCarrier groups k) :=
  inferInstanceAs (Decidable (_ ≤ _))

theorem OneCarrier.of_perm {groups groups' : List Group} {k : Key} (h : OneCarrier groups k)
    (hperm : groups.Perm groups') : OneCarrier groups' k := by
  rwa [OneCarrier, ← (hperm.filter _).length_eq]

theorem eq_of_length_le_one {α : Type} {xs : List α} (h : xs.length ≤ 1) {x y : α} (hx : x ∈ xs)
    (hy : y ∈ xs) : x = y := by
  obtain ⟨i, hi, rfl⟩ := List.mem_iff_getElem.mp hx
  obtain ⟨j, hj, rfl⟩ := List.mem_iff_getElem.mp hy
  obtain rfl : i = j := by omega
  rfl

namespace Origin

variable {tensors tensors' : List Tensor} {x y : Index} {o : Origin} {g : Group}

theorem of?_eq_none_iff :
    of? tensors x = none ↔ ∀ g ∈ tensors.flatMap (·.groups), ¬ g.HasKey x.key := by
  rw [of?_eq_find?, Option.map_eq_none_iff, List.find?_eq_none, ← slots_map_fst,
    List.forall_mem_map]
  simp only [decide_eq_true_eq]

theorem of?_eq_some_iff (h : OneCarrier (tensors.flatMap (·.groups)) x.key) :
    of? tensors x = some o ↔ ∃ g, (g, o) ∈ slots tensors ∧ g.HasKey x.key := by
  rw [of?_eq_find?, Option.map_eq_some_iff]
  constructor
  · rintro ⟨⟨g, p⟩, hfind, rfl⟩
    exact ⟨g, List.mem_of_find?_eq_some hfind, by simpa using List.find?_some hfind⟩
  · rintro ⟨g, hg, hkey⟩
    have hcarriers : ((slots tensors).filter fun p => p.1.HasKey x.key).length ≤ 1 := by
      rw [OneCarrier, ← slots_map_fst, List.filter_map, List.length_map] at h
      exact h
    obtain ⟨p, hp⟩ : ∃ p, (slots tensors).find? (fun p => decide (p.1.HasKey x.key)) = some p :=
      Option.isSome_iff_exists.mp (List.find?_isSome.mpr ⟨(g, o), hg, decide_eq_true hkey⟩)
    -- the slot that is found is the only one
    have hmem : (g, o) ∈ (slots tensors).filter fun p => p.1.HasKey x.key :=
      List.mem_filter.mpr ⟨hg, decide_eq_true hkey⟩
    have hfound : p ∈ (slots tensors).filter fun p => p.1.HasKey x.key :=
      List.mem_filter.mpr ⟨List.mem_of_find?_eq_some hp, by simpa using List.find?_some hp⟩
    exact ⟨p, hp, by rw [eq_of_length_le_one hcarriers hfound hmem]⟩

theorem eq_of_mem_slots {g' : Group} (h : (g, o) ∈ slots tensors) (h' : (g', o) ∈ slots tensors) :
    g = g' := by
  obtain ⟨t, ht, hg⟩ := mem_slots_iff.mp h
  obtain ⟨t', ht', hg'⟩ := mem_slots_iff.mp h'
  obtain rfl : t = t' := Option.some.inj (ht.symm.trans ht')
  exact Option.some.inj (hg.symm.trans hg')

/-- **With one carrier each, two indices have one origin exactly if one group has both keys**, or
if no group has either. -/
theorem of?_eq_of?_iff (hx : OneCarrier (tensors.flatMap (·.groups)) x.key)
    (hy : OneCarrier (tensors.flatMap (·.groups)) y.key) :
    of? tensors x = of? tensors y ↔
      (∀ g ∈ tensors.flatMap (·.groups), ¬ g.HasKey x.key ∧ ¬ g.HasKey y.key) ∨
        ∃ g ∈ tensors.flatMap (·.groups), g.HasKey x.key ∧ g.HasKey y.key := by
  have hslot (g : Group) : g ∈ tensors.flatMap (·.groups) ↔ ∃ o, (g, o) ∈ slots tensors := by
    rw [← slots_map_fst, List.mem_map]
    simp
  constructor
  · intro h
    cases hxo : of? tensors x with
    | none =>
      have hyo := h.symm.trans hxo
      rw [of?_eq_none_iff] at hxo hyo
      exact .inl fun g hg => ⟨hxo g hg, hyo g hg⟩
    | some o =>
      obtain ⟨g, hg, hgx⟩ := (of?_eq_some_iff hx).mp hxo
      obtain ⟨g', hg', hgy⟩ := (of?_eq_some_iff hy).mp (h.symm.trans hxo)
      obtain rfl := eq_of_mem_slots hg hg'
      exact .inr ⟨g, (hslot g).mpr ⟨o, hg⟩, hgx, hgy⟩
  · rintro (hnone | ⟨g, hg, hgx, hgy⟩)
    · rw [of?_eq_none_iff.mpr fun g hg => (hnone g hg).1,
        of?_eq_none_iff.mpr fun g hg => (hnone g hg).2]
    · obtain ⟨o, ho⟩ := (hslot g).mp hg
      rw [(of?_eq_some_iff hx).mpr ⟨g, ho, hgx⟩, (of?_eq_some_iff hy).mpr ⟨g, ho, hgy⟩]

/-- **With one carrier each, the order of the tensors does not matter.** -/
theorem alike_of_perm {xs : List Index} (hperm : tensors.Perm tensors')
    (hone : ∀ x ∈ xs, OneCarrier (tensors.flatMap (·.groups)) x.key) :
    Alike tensors tensors' xs := by
  have hgroups := hperm.flatMap_right (·.groups)
  constructor
  case eq_none_iff =>
    intro x _
    rw [of?_eq_none_iff, of?_eq_none_iff]
    simp only [hgroups.mem_iff]
  case eq_iff =>
    intro x hx y hy
    rw [of?_eq_of?_iff (hone x hx) (hone y hy),
      of?_eq_of?_iff ((hone x hx).of_perm hgroups) ((hone y hy).of_perm hgroups)]
    simp only [hgroups.mem_iff]

end Origin

/-! ### Super-vertices in other numbers -/

/-- A record with other numbers for its super-vertices. -/
def Record.renumberSuperVertices (τ : Int → Int) (r : Record) : Record :=
  { r with superVertices := r.superVertices.map τ }

/-- Positive numbers that are different for different super-vertices. -/
structure Record.RenumbersSuperVertices (r : Record) (τ : Int → Int) : Prop where
  /-- Numbers are counted from one. -/
  pos : ∀ s ∈ r.superVertices, 1 ≤ τ s
  /-- No two super-vertices become one. -/
  inj : ∀ s ∈ r.superVertices, ∀ t ∈ r.superVertices, τ s = τ t → s = t

/-- A number counted from zero. -/
def superVertexFromZero (τ : Int → Int) (n : Nat) : Nat := (τ (n + 1) - 1).toNat

/-- A vertex of a super-vertex with another number. -/
def Vertex.renumber (ν : Nat → Nat) (v : Vertex) : Vertex :=
  { v with superVertex := ν v.superVertex }

/-- A contraction in which the key of each external index is on one slot at most. -/
def Contraction.OneCarrierEach (c : Contraction) : Prop :=
  ∀ x ∈ c.externalIndices, OneCarrier (c.tensors.flatMap (·.groups)) x.key

namespace Record

variable {r : Record} {vs : List Vertex} {c : Contraction} {τ : Int → Int}

theorem RenumbersSuperVertices.fromZero_succ (h : r.RenumbersSuperVertices τ) {n : Nat}
    (hn : (n : Int) + 1 ∈ r.superVertices) :
    τ (n + 1) = (superVertexFromZero τ n : Int) + 1 := by
  have hpos := h.pos _ hn
  rw [superVertexFromZero]
  omega

theorem HasVertices.mem_superVertices (h : r.HasVertices vs) {v : Vertex} (hv : v ∈ vs) :
    (v.superVertex : Int) + 1 ∈ r.superVertices := by
  rw [h.superVertices_eq]
  exact List.mem_map_of_mem hv

theorem HasVertices.renumber (h : r.HasVertices vs) (hτ : r.RenumbersSuperVertices τ) :
    (r.renumberSuperVertices τ).HasVertices (vs.map (Vertex.renumber (superVertexFromZero τ)))
    where
  length_eq := (List.length_map _).trans h.length_eq
  vertices := by
    show List.Forall₂ _ ((r.superVertices.map τ).zip r.vertices).zipIdx _
    rw [List.zip_map_left, List.zipIdx_map]
    refine Check.forall₂_map h.vertices fun p hp v hv => ?_
    have hmem := (List.of_mem_zip (List.fst_mem_of_mem_zipIdx hp)).1
    have hnumber := hv.superVertex_eq
    refine ⟨hv.position_eq, ?_, hv.name_eq, hv.transposed_eq, hv.signatures_eq⟩
    show τ p.1.1 = (superVertexFromZero τ v.superVertex : Int) + 1
    rw [hnumber] at hmem ⊢
    exact hτ.fromZero_succ hmem

theorem RenumbersSuperVertices.inj_fromZero (hτ : r.RenumbersSuperVertices τ)
    (h : r.HasVertices vs) :
    ∀ n ∈ vs.map (·.superVertex), ∀ m ∈ vs.map (·.superVertex),
      superVertexFromZero τ n = superVertexFromZero τ m → n = m := by
  simp only [List.forall_mem_map]
  intro v hv w hw hvw
  have hvr := h.mem_superVertices hv
  have hwr := h.mem_superVertices hw
  have heq := hτ.inj _ hvr _ hwr (by rw [hτ.fromZero_succ hvr, hτ.fromZero_succ hwr, hvw])
  omega

/-- Joining vertices does not ask for the number of the super-vertex. -/
theorem joins_renumber {s : SuperVertex} {pool : List Index} {t : Tensor} (ν : Nat → Nat)
    (h : s.Joins pool t) : (s.map (Vertex.renumber ν)).Joins pool t where
  agree := List.forall_mem_map.mpr h.agree
  name_eq := h.name_eq
  transposed_eq := h.transposed_eq
  groups := by
    show List.Forall₂ _ (s.members.map (Vertex.renumber ν)) t.groups
    exact List.forall₂_map_left_iff.mpr h.groups

theorem Yields.renumberSuperVertices (hy : r.Yields vs c) (hτ : r.RenumbersSuperVertices τ) :
    ∃ c', (r.renumberSuperVertices τ).Yields
        (vs.map (Vertex.renumber (superVertexFromZero τ))) c' ∧
      c.id = c'.id ∧ c.result = c'.result ∧ c.tensors.Perm c'.tensors := by
  have hvs := hy.hasVertices
  have hperm := SuperVertex.ofVertices_perm_map
    (f := Vertex.renumber (superVertexFromZero τ)) (fun _ => rfl) (hτ.inj_fromZero hvs)
  -- the old tensors belong to the super-vertices, which now come in another order
  have hjoins : List.Forall₂ (fun s t => SuperVertex.Joins s c.vertexIndices t)
      ((SuperVertex.ofVertices vs).map (.map (Vertex.renumber (superVertexFromZero τ))))
      c.tensors :=
    List.forall₂_map_left_iff.mpr (hy.tensors.imp fun _ _ ht => joins_renumber _ ht)
  obtain ⟨tensors, htensors, hsame⟩ := List.perm_comp_forall₂ hperm hjoins
  refine ⟨{ c with
    tensors := tensors
    superVertices := c.superVertices.map (superVertexFromZero τ) }, ?_, rfl, rfl, hsame.symm⟩
  exact { hy with
    superVertexCount_eq := hy.superVertexCount_eq.trans (congrArg _ (List.length_map _).symm)
    superVertices := Check.forall₂_map hy.superVertices fun w hw n hn => by
      rw [hn] at hw ⊢
      exact hτ.fromZero_succ hw
    vertices := (hvs.renumber hτ).vertices
    vertexPlaces := by
      rw [List.flatMap_map]
      exact hy.vertexPlaces
    operatorCount_eq := by
      rw [hperm.length_eq, List.length_map]
      exact hy.operatorCount_eq
    tensors := htensors }

end Record

namespace Contraction

variable {r : Record} {c : Contraction} {τ : Int → Int}

/-- **The order of operators does not matter.**  A record whose super-vertices are numbered
otherwise is accepted if the record is, and if the key of each external index is on one slot at
most, the same symmetrization is needed, or there is none for the same reason. -/
theorem exists_ofRecord_renumberSuperVertices (hr : ofRecord r = .ok c)
    (hτ : r.RenumbersSuperVertices τ) (hone : c.OneCarrierEach) :
    ∃ c', ofRecord (r.renumberSuperVertices τ) = .ok c' ∧
      Symmetrization.ofContraction c' = Symmetrization.ofContraction c := by
  obtain ⟨vs, hy⟩ := ofRecord_eq_ok_iff.mp hr
  obtain ⟨c', hy', hid, hresult, hperm⟩ := hy.renumberSuperVertices hτ
  refine ⟨c', ofRecord_eq_ok_iff.mpr ⟨_, hy'⟩, ?_⟩
  refine (Symmetrization.ofContraction_congr hid (congrArg _ hresult) ?_).symm
  refine Origin.alike_of_perm hperm fun x hx => hone x ?_
  exact hy.resultEntries_perm.mem_iff.mp hx

/-- The numbers of the first two super-vertices exchanged. -/
def exchangeFirst (s : Int) : Int := if s = 1 then 2 else if s = 2 then 1 else s

theorem paired_renumbersSuperVertices :
    Symmetrization.paired.RenumbersSuperVertices exchangeFirst := ⟨by decide, by decide⟩

theorem pairedContraction_oneCarrierEach :
    Symmetrization.pairedContraction.OneCarrierEach := by
  unfold OneCarrierEach
  decide +kernel

theorem exists_ofRecord_paired_renumbered :
    ofRecord Symmetrization.paired = .ok Symmetrization.pairedContraction ∧
      Symmetrization.paired.RenumbersSuperVertices exchangeFirst ∧
      Symmetrization.pairedContraction.OneCarrierEach ∧
      ∃ c', ofRecord (Symmetrization.paired.renumberSuperVertices exchangeFirst) = .ok c' ∧
        Symmetrization.ofContraction c' =
          Symmetrization.ofContraction Symmetrization.pairedContraction :=
  ⟨Symmetrization.ofRecord_paired, paired_renumbersSuperVertices,
    pairedContraction_oneCarrierEach,
    exists_ofRecord_renumberSuperVertices Symmetrization.ofRecord_paired
      paired_renumbersSuperVertices pairedContraction_oneCarrierEach⟩

end Contraction
end TensorContraction
