import TensorContraction.Proofs.Unambiguity
import TensorContraction.Term.Structured

/-!
# Structured documents are lossless

A structured document names every field of a term, and its text is known with all it holds.  The
numbers that are written as strings, a factor among them, are known by their digits.  So two
lists of terms with one text are one list.

## Main results

* `Structured.tensor_injective`, `Structured.contraction_injective`,
  `Structured.symmetrization_injective` — the parts of a term are known by their documents.
* `Structured.document_inj` — terms are known by their text.
-/

namespace TensorContraction.Structured

open Function Text

variable {α : Type}

/-! ### Parts -/

theorem space_injective : Injective space := by
  intro s t h
  cases s <;> cases t <;> simp_all [space, Space.name]

theorem roleName_injective : Injective roleName := by
  intro r q h
  cases r <;> cases q <;> simp_all [roleName]

theorem list_injective {item : α → Json} (h : Injective item) : Injective (list item) := by
  intro xs ys heq
  exact h.list_map (Json.list.inj heq)

theorem ratioText_injective : Injective ratioText := by
  intro p q h
  exact ratioText_inj.mp (congrArg String.toList h)

theorem decimal_injective : Injective Nat.repr := by
  intro m n h
  have hdigits := congrArg String.toList h
  rwa [Nat.toList_repr, Nat.toList_repr, toDigits_inj] at hdigits

theorem index_injective : Injective index := by
  rintro ⟨i, s, v, r⟩ ⟨j, t, w, q⟩ h
  simpa [index, space_injective.eq_iff, roleName_injective.eq_iff] using h

theorem ladder_injective {item : α → Json} (h : Injective item) : Injective (ladder item) := by
  rintro ⟨xs, ys⟩ ⟨xs', ys'⟩ heq
  simpa [ladder, (list_injective h).eq_iff] using heq

theorem tensor_injective : Injective tensor := by
  have hgroups := list_injective (ladder_injective index_injective)
  rintro ⟨name, groups, transposed⟩ ⟨name', groups', transposed'⟩ h
  simpa [tensor, hgroups.eq_iff] using h

theorem arc_injective : Injective arc := by
  have hspaces := list_injective (ladder_injective space_injective)
  rintro ⟨first, second, spaces⟩ ⟨first', second', spaces'⟩ h
  simpa [arc, hspaces.eq_iff] using h

/-! ### Terms -/

theorem contraction_injective : Injective contraction := by
  have htensors := list_injective tensor_injective
  have hnumber : Injective Json.number := fun _ _ => Json.number.inj
  have harcs := list_injective arc_injective
  have hindices := list_injective index_injective
  intro c d h
  cases c
  cases d
  simpa [contraction, ratioText_injective.eq_iff, tensor_injective.eq_iff, htensors.eq_iff,
    (list_injective hnumber).eq_iff, harcs.eq_iff, hindices.eq_iff] using h

theorem symmetrization_injective : Injective symmetrization := by
  have hgroups := list_injective (list_injective index_injective)
  rintro ⟨⟨xs, ys⟩, implied, required⟩ ⟨⟨xs', ys'⟩, implied', required'⟩ h
  simpa [symmetrization, hgroups.eq_iff, decimal_injective.eq_iff, and_assoc] using h

theorem term_injective : Injective term := by
  rintro ⟨c, s⟩ ⟨d, t⟩ h
  simpa [term, contraction_injective.eq_iff, symmetrization_injective.eq_iff] using h

/-- **Structured documents are lossless**: terms are known by their text. -/
theorem document_inj {ts us : List Term} : document ts = document us ↔ ts = us := by
  rw [document, document, Json.write_inj, (list_injective term_injective).eq_iff]

end TensorContraction.Structured
