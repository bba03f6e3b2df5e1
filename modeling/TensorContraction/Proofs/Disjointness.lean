import Mathlib.Data.List.Pairwise
import TensorContraction.Proofs.Antisymmetrizers

/-!
# When antisymmetrizers are disjoint

Merging stops where two groups hold indices of one origin, so groups may be left that share
members.  What decides it are the origins of the indices that stand in one slot of the
result and run over one space: either they are all equal, then there is no group at all, or
they are all different, then there is one group of all of them.  Anything in between leaves
two groups with a common member, and nothing checks for that: the counts that are compared
may well fit together.

## Main definitions

* `Contraction.EvenOrigins` — origins are all equal or all different.

## Main results

* `Symmetrization.pairwise_disjoint_iff` — groups are disjoint exactly if origins are even.
* `Symmetrization.not_pairwise_disjoint` — they need not be.
-/

namespace TensorContraction

/-! ### Disjoint groups -/

/-- Within each slot of the result and each space, the indices of a role all come from one slot
of the product or all from different ones. -/
def Contraction.EvenOrigins (c : Contraction) (role : Role) : Prop :=
  ∀ slot s,
    (∀ x ∈ c.externals slot role s, ∀ y ∈ c.externals slot role s,
      Origin.of? c.tensors x = Origin.of? c.tensors y) ∨
    ∀ x ∈ c.externals slot role s, ∀ y ∈ c.externals slot role s, x ≠ y →
      Origin.of? c.tensors x ≠ Origin.of? c.tensors y

namespace Contraction.AntisymmetrizedBy

variable {c : Contraction} {role : Role} {groups : List (List Index)}

theorem origin_ne (h : c.AntisymmetrizedBy role groups) {g : List Index} (hg : g ∈ groups)
    {x y : Index} (hx : x ∈ g) (hy : y ∈ g) (hxy : x ≠ y) :
    Origin.of? c.tensors x ≠ Origin.of? c.tensors y := by
  have hsymm : Std.Symm fun x y => Origin.of? c.tensors x ≠ Origin.of? c.tensors y :=
    ⟨fun _ _ => Ne.symm⟩
  exact (h.origins_ne g hg).forall hx hy hxy

/-- A third index of another origin is in one group with each of two of one origin, and these
are not the same group. -/
theorem evenOrigins_of_disjoint (h : c.AntisymmetrizedBy role groups)
    (hdisjoint : groups.Pairwise List.Disjoint) : c.EvenOrigins role := by
  intro slot s
  by_contra hneither
  push Not at hneither
  obtain ⟨⟨a, ha, b, hb, hab⟩, x, hx, y, hy, hxy, hsame⟩ := hneither
  obtain ⟨z, hz, hzx⟩ : ∃ z ∈ c.externals slot role s,
      Origin.of? c.tensors z ≠ Origin.of? c.tensors x := by
    by_cases hax : Origin.of? c.tensors a = Origin.of? c.tensors x
    · exact ⟨b, hb, fun hbx => hab (hax.trans hbx.symm)⟩
    · exact ⟨a, ha, hax⟩
  obtain ⟨g, hg, hxg, hzg⟩ := h.cover slot s x hx z hz hzx.symm
  obtain ⟨k, hk, hyk, hzk⟩ := h.cover slot s y hy z hz (hsame ▸ hzx.symm)
  by_cases hgk : g = k
  · subst hgk
    exact h.origin_ne hg hxg hyk hxy hsame
  · have hsymm : Std.Symm (List.Disjoint (α := Index)) := ⟨fun _ _ => List.Disjoint.symm⟩
    exact hdisjoint.forall hg hk hgk hzg hzk

/-- A shared member would have to differ in origin from both of two indices that do not differ
from each other. -/
theorem disjoint_of_evenOrigins (h : c.AntisymmetrizedBy role groups)
    (heven : c.EvenOrigins role) : groups.Pairwise List.Disjoint := by
  refine h.unmergeable.imp_of_mem ?_
  intro g k hg hk hshare z hzg hzk
  obtain ⟨x, hxg, y, hyk, hxy, hsame⟩ := hshare ⟨z, hzg, hzk⟩
  obtain ⟨slot, s, hplaceg⟩ := h.place g hg
  obtain ⟨slot', s', hplacek⟩ := h.place k hk
  obtain ⟨rfl, rfl⟩ := eq_of_mem_externals (hplaceg z hzg) (hplacek z hzk)
  rcases heven slot s with hequal | hdifferent
  · by_cases hxz : x = z
    · exact h.origin_ne hk hyk hzk (hxz ▸ hxy.symm) (hequal y (hplacek y hyk) z (hplacek z hzk))
    · exact h.origin_ne hg hxg hzg hxz (hequal x (hplaceg x hxg) z (hplaceg z hzg))
  · exact hdifferent x (hplaceg x hxg) y (hplacek y hyk) hxy hsame

end Contraction.AntisymmetrizedBy

namespace Symmetrization

/-- **Groups are disjoint exactly if origins are even.** -/
theorem pairwise_disjoint_iff {r : Record} {c : Contraction} {s : Symmetrization}
    (hr : Contraction.ofRecord r = .ok c) (hs : ofContraction c = .ok s) (role : Role) :
    (s.groups.on role).Pairwise List.Disjoint ↔ c.EvenOrigins role := by
  obtain ⟨found, hn⟩ := ofContraction_eq_ok_iff.mp hs
  have h := hn.antisymmetrizedBy (Contraction.resultDealt_of_ofRecord hr) role
  exact ⟨h.evenOrigins_of_disjoint, h.disjoint_of_evenOrigins⟩

/-- Two operators side by side, with a creator and an annihilator each. -/
def paired : Record where
  id := 1
  result := ⟨"R", false, [⟨[.occupied, .occupied], [.virtual, .virtual]⟩]⟩
  factor := ⟨1, 1, 1⟩
  vertexCount := 2
  operatorCount := 2
  superVertices := [1, 2]
  arcCount := 0
  externalArcCount := 0
  vertices := [⟨"T", false, [⟨[.occupied], [.virtual]⟩]⟩, ⟨"T", false, [⟨[.occupied], [.virtual]⟩]⟩]
  arcs := []
  externalArcs := []
  vertexRows := [⟨1, 1, 1, true, 1, 1⟩, ⟨2, 1, 1, true, 1, 2⟩, ⟨1, 2, 2, true, 1, 1⟩,
    ⟨2, 2, 2, true, 1, 2⟩]
  resultRows := [⟨1, 1, 1, 1, 1⟩, ⟨1, 1, 1, 1, 2⟩, ⟨1, 2, 2, 1, 1⟩, ⟨1, 2, 2, 1, 2⟩]

def pairedContraction : Contraction where
  id := 0
  factor := 1
  result := ⟨"R", [⟨[⟨0, .occupied, 0, .creator⟩, ⟨1, .occupied, 0, .creator⟩],
    [⟨1, .virtual, 0, .annihilator⟩, ⟨0, .virtual, 0, .annihilator⟩]⟩], false⟩
  tensors := [⟨"T", [⟨[⟨0, .occupied, 0, .creator⟩], [⟨0, .virtual, 0, .annihilator⟩]⟩], false⟩,
    ⟨"T", [⟨[⟨1, .occupied, 1, .creator⟩], [⟨1, .virtual, 1, .annihilator⟩]⟩], false⟩]
  superVertices := [0, 1]
  arcs := []
  externalArcs := []
  vertexIndices := [⟨0, .occupied, 0, .creator⟩, ⟨1, .occupied, 1, .creator⟩,
    ⟨0, .virtual, 0, .annihilator⟩, ⟨1, .virtual, 1, .annihilator⟩]
  externalIndices := [⟨0, .occupied, 0, .creator⟩, ⟨1, .occupied, 0, .creator⟩,
    ⟨0, .virtual, 0, .annihilator⟩, ⟨1, .virtual, 0, .annihilator⟩]

/-- Both roles exchange the two operators. -/
def pairedSymmetrization : Symmetrization where
  groups := ⟨[[⟨0, .occupied, 0, .creator⟩, ⟨1, .occupied, 0, .creator⟩]],
    [[⟨0, .virtual, 0, .annihilator⟩, ⟨1, .virtual, 0, .annihilator⟩]]⟩
  implied := 4
  required := 4

theorem ofRecord_paired : Contraction.ofRecord paired = .ok pairedContraction := by decide +kernel

theorem ofContraction_paired : ofContraction pairedContraction = .ok pairedSymmetrization := by
  decide +kernel

theorem paired_disjoint_iff :
    Contraction.ofRecord paired = .ok pairedContraction ∧
      ofContraction pairedContraction = .ok pairedSymmetrization ∧
      ∀ role, (pairedSymmetrization.groups.on role).Pairwise List.Disjoint ↔
        pairedContraction.EvenOrigins role :=
  ⟨ofRecord_paired, ofContraction_paired,
    fun role => pairwise_disjoint_iff ofRecord_paired ofContraction_paired role⟩

/-- **Groups need not be disjoint.** -/
theorem not_pairwise_disjoint :
    ¬ ∀ (r : Record) (c : Contraction) (s : Symmetrization), Contraction.ofRecord r = .ok c →
      ofContraction c = .ok s → ∀ role, (s.groups.on role).Pairwise List.Disjoint := by
  intro h
  have hdisjoint := h _ _ _ ofRecord_uneven ofContraction_uneven .creator
  obtain ⟨hfirst, -⟩ := List.pairwise_cons.mp hdisjoint
  -- the third creator is in both groups
  exact hfirst _ List.mem_cons_self (List.mem_cons_of_mem _ List.mem_cons_self)
    (List.mem_cons_of_mem _ List.mem_cons_self)

end Symmetrization
end TensorContraction
