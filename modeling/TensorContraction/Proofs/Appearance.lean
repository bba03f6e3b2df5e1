import Mathlib.Data.List.Forall2
import TensorContraction.Proofs.Check
import TensorContraction.Term.Sequant
import TensorContraction.Term.Tex

/-!
# What a text shows of a contraction

The lines of a contraction show its factor, the names of its tensors and, string by string,
the space and the number of each index.  They show neither the vertex of an index nor how the
indices of a tensor are shared out to groups.  Contractions that agree in what is shown look
alike, and texts do not tell them apart.

## Main definitions

* `Index.mark` — what is shown of an index.
* `Tensor.LooksLike`, `Contraction.LooksLike` — what is shown of tensors and contractions
  agrees.

## Main results

* `Contraction.LooksLike.line_eq` — such contractions have one line of TeX.
* `Contraction.LooksLike.document_eq` — with one symmetrization they have one text for SeQuant.
-/

namespace TensorContraction

/-! ### Looking alike -/

/-- What is shown of an index. -/
def Index.mark (x : Index) : Space × Nat := (x.space, x.id)

/-- Tensors of one name whose strings show the same indices. -/
structure Tensor.LooksLike (t t' : Tensor) : Prop where
  /-- The names are the same. -/
  name_eq : t.name = t'.name
  /-- The creators of all groups together show the same. -/
  creators_eq : t.creators.map Index.mark = t'.creators.map Index.mark
  /-- So do the annihilators. -/
  annihilators_eq : t.annihilators.map Index.mark = t'.annihilators.map Index.mark

/-- Contractions of one factor whose tensors look alike, one by one. -/
structure Contraction.LooksLike (c c' : Contraction) : Prop where
  /-- The factors are the same. -/
  factor_eq : c.factor = c'.factor
  /-- The results look alike. -/
  result : c.result.LooksLike c'.result
  /-- The tensors of the products look alike, in order. -/
  tensors : List.Forall₂ Tensor.LooksLike c.tensors c'.tensors

theorem Tensor.LooksLike.refl (t : Tensor) : t.LooksLike t := ⟨rfl, rfl, rfl⟩

theorem Tensor.forall₂_looksLike_map {f : Tensor → Tensor} (h : ∀ t, (f t).LooksLike t)
    (ts : List Tensor) : List.Forall₂ LooksLike (ts.map f) ts := by
  rw [List.forall₂_map_left_iff, List.forall₂_same]
  exact fun t _ => h t

theorem Tensor.isScalar_iff {t : Tensor} :
    t.isScalar = true ↔ t.creators = [] ∧ t.annihilators = [] := by
  simp only [isScalar, creators, annihilators, List.all_eq_true, Ladder.isEmpty, Bool.and_eq_true,
    List.isEmpty_iff, List.flatMap_eq_nil_iff]
  exact forall₂_and

theorem Tensor.LooksLike.isScalar_eq {t t' : Tensor} (h : t.LooksLike t') :
    t.isScalar = t'.isScalar := by
  have hnil {xs ys : List Index} (hmark : xs.map Index.mark = ys.map Index.mark) :
      xs = [] ↔ ys = [] := by
    rw [← List.map_eq_nil_iff (f := Index.mark), hmark, List.map_eq_nil_iff]
  rw [Bool.eq_iff_iff, isScalar_iff, isScalar_iff, hnil h.creators_eq, hnil h.annihilators_eq]

/-- What is made of marks alone agrees where the marks do. -/
theorem map_eq_of_mark_eq {α : Type} {f : Index → α} {g : Space × Nat → α}
    (hfg : ∀ x, f x = g x.mark) {xs ys : List Index} (h : xs.map Index.mark = ys.map Index.mark) :
    xs.map f = ys.map f := by
  have hmap (zs : List Index) : zs.map f = (zs.map Index.mark).map g := by
    rw [List.map_map]
    exact List.map_congr_left fun x _ => hfg x
  rw [hmap, hmap, h]

/-! ### TeX -/

namespace Tex

theorem labels_eq {xs ys : List Index} (h : xs.map Index.mark = ys.map Index.mark) :
    labels xs = labels ys := by
  have hlabel : xs.map label = ys.map label :=
    map_eq_of_mark_eq (g := fun m => letter m.1 ++ "_" ++ toString (m.2 + 1)) (fun _ => rfl) h
  rw [labels, labels, hlabel]

theorem tensor_eq {t t' : Tensor} (h : t.LooksLike t') : tensor t = tensor t' := by
  rw [tensor, tensor, h.name_eq, labels_eq h.creators_eq, labels_eq h.annihilators_eq]

end Tex

/-- **Contractions that look alike have one line of TeX.** -/
theorem Contraction.LooksLike.line_eq {c c' : Contraction} (h : c.LooksLike c') :
    Tex.line c = Tex.line c' := by
  have htensors : c.tensors.map Tex.tensor = c'.tensors.map Tex.tensor :=
    Check.map_eq_of_forall₂ (fun _ _ ht => Tex.tensor_eq ht) h.tensors
  rw [Tex.line, Tex.line, Tex.tensor_eq h.result, h.factor_eq, htensors]

/-! ### SeQuant -/

namespace Sequant

theorem labels_eq {xs ys zs ws : List Index} (hxs : xs.map Index.mark = ys.map Index.mark)
    (hzs : zs.map Index.mark = ws.map Index.mark) : labels xs zs = labels ys ws := by
  have hlabel {xs ys : List Index} (h : xs.map Index.mark = ys.map Index.mark) :
      xs.map label = ys.map label :=
    map_eq_of_mark_eq (g := fun m => letter m.1 ++ toString (m.2 + 1)) (fun _ => rfl) h
  rw [labels, labels, hlabel hxs, hlabel hzs]

theorem tensor_eq {t t' : Tensor} (h : t.LooksLike t') : tensor t = tensor t' := by
  have hlength := congrArg List.length h.creators_eq
  rw [List.length_map, List.length_map] at hlength
  rw [tensor, tensor, name, name, h.name_eq, hlength, labels_eq h.creators_eq h.annihilators_eq]

theorem antisymmetrizer_eq {c c' : Contraction} (h : c.result.LooksLike c'.result)
    (s : Symmetrization) : antisymmetrizer ⟨c, s⟩ = antisymmetrizer ⟨c', s⟩ := by
  simp only [antisymmetrizer, h.isScalar_eq, labels_eq h.annihilators_eq h.creators_eq]

/-- The text of a single term is its result and its line. -/
theorem document_singleton (t : Term) :
    document [t] = String.join [equation t.contraction.result [t]] := rfl

end Sequant

/-- **Contractions that look alike have one text for SeQuant** with the same symmetrization. -/
theorem Contraction.LooksLike.document_eq {c c' : Contraction} (h : c.LooksLike c')
    (s : Symmetrization) : Sequant.document [⟨c, s⟩] = Sequant.document [⟨c', s⟩] := by
  have htensors : c.tensors.map Sequant.tensor = c'.tensors.map Sequant.tensor :=
    Check.map_eq_of_forall₂ (fun _ _ ht => Sequant.tensor_eq ht) h.tensors
  have hline : Sequant.line ⟨c, s⟩ = Sequant.line ⟨c', s⟩ := by
    rw [Sequant.line, Sequant.line, Sequant.antisymmetrizer_eq h.result, h.factor_eq, htensors]
  rw [Sequant.document_singleton, Sequant.document_singleton, Sequant.equation, Sequant.equation,
    Sequant.tensor_eq h.result, List.map_singleton, List.map_singleton, hline]

end TensorContraction
