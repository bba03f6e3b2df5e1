import TensorContraction.Proofs.Reading

/-!
# Texts that are no signatures

A text is either the text of some signatures, which are read, or it is refused.  It is refused
with a character that it holds and that names no space, or else as a whole.  Nothing is lost
between the two: a bracket or a comma too many, a bracket that is missing, and whatever stands
between signatures or behind the last all make a text that no signatures have.

## Main definitions

* `SignatureText.Blames` — what a fault may say about a text.

## Main results

* `SignatureText.blames_of_readAll` — a fault of a text is one of that text.
* `Text.Word.signatures_or_refusal` — which words are read, and how all others are refused.
-/

namespace TensorContraction

namespace SignatureText

variable {cs ds run : List Char} {fault : Fault}

/-- A fault that a text can have: it is malformed as a whole, or holds a character that names no
space. -/
inductive Blames : Fault → List Char → Prop
  /-- The text is malformed. -/
  | malformed (cs : List Char) : Blames .malformed cs
  /-- A character of the text names no space. -/
  | unknownSpace {c : Char} {cs : List Char} (hmem : c ∈ cs) (hc : Space.ofLetter? c = none) :
    Blames (.unknownSpace c) cs

/-- What can be said about a part of a text can be said about the text. -/
theorem Blames.mono (h : Blames fault cs) (hsub : cs ⊆ ds) : Blames fault ds := by
  cases h with
  | malformed => exact .malformed ds
  | unknownSpace hmem hc => exact .unknownSpace (hsub hmem) hc

theorem blames_of_spaces (h : spaces cs = .error fault) : Blames fault cs := by
  obtain ⟨c, hmem, hc⟩ := Check.exists_of_mapM_eq_error h
  split at hc
  · simp at hc
  · next hnone =>
    obtain rfl := Except.error.inj hc
    exact .unknownSpace hmem hnone

theorem blames_of_read (h : read run = .error fault) : Blames fault run := by
  unfold read at h
  split at h
  · next body =>
    split at h
    · next upper lower hcut =>
      obtain ⟨m, -, -, rfl⟩ := Text.cut?_eq_some_iff.mp hcut
      have hupper : upper ⊆ '(' :: (upper ++ m :: lower) := by grind
      have hlower : lower ⊆ '(' :: (upper ++ m :: lower) := by grind
      rcases Check.bind_eq_error_iff.mp h with h | ⟨creators, -, h⟩
      · exact (blames_of_spaces h).mono hupper
      rcases Check.bind_eq_error_iff.mp h with h | ⟨annihilators, -, h⟩
      · exact (blames_of_spaces h).mono hlower
      · simp [pure, Except.pure] at h
    · obtain rfl := Except.error.inj h
      exact .malformed _
  · obtain rfl := Except.error.inj h
    exact .malformed _

/-- **A fault of a text is one of that text.** -/
theorem blames_of_readAll (h : readAll cs = .error fault) : Blames fault cs := by
  unfold readAll at h
  rcases hpieces : Text.pieces (· == ')') cs with ⟨runs, rest⟩
  rw [hpieces] at h
  rcases Check.bind_eq_error_iff.mp h with h | ⟨signatures, -, h⟩
  · obtain ⟨run, hrun, hfault⟩ := Check.exists_of_mapM_eq_error h
    refine (blames_of_read hfault).mono fun c hc => ?_
    rw [flatMap_pieces hpieces]
    exact List.mem_append_left _ (List.mem_flatMap.mpr ⟨run, hrun, List.mem_append_left _ hc⟩)
  · split at h
    · simp [pure, Except.pure] at h
    · obtain rfl := Except.error.inj h
      exact .malformed cs

-- the text is cut at the first comma, and a second one is no letter of a space
example : readAll ['(', 'H', ',', 'P', ',', 'V', ')'] = .error (.unknownSpace ',') := rfl

end SignatureText

theorem Space.ofLetter?_eq_none_iff {c : Char} :
    ofLetter? c = none ↔ c ≠ 'H' ∧ c ≠ 'P' ∧ c ≠ 'V' := by
  constructor
  · intro h
    refine ⟨?_, ?_, ?_⟩ <;> rintro rfl <;> simp [ofLetter?] at h
  · rintro ⟨hH, hP, hV⟩
    unfold ofLetter?
    split <;> simp_all

/-- **Each word is read as the signatures that it is the text of, or it is refused**, with a
character of it that names no space or as a whole. -/
theorem Text.Word.signatures_or_refusal (w : Word) :
    (∀ ss, w.signatures = .ok ss ↔ w.text = String.ofList (SignatureText.writeAll ss)) ∧
    ((∃ ss, w.text = String.ofList (SignatureText.writeAll ss)) ∨
      (∃ c ∈ w.text.toList, (c ≠ 'H' ∧ c ≠ 'P' ∧ c ≠ 'V') ∧
        w.signatures = .error (.atLine w.line (.unknownSpace c))) ∨
      w.signatures = .error (.atLine w.line (.malformedSignatures w.text))) := by
  have hread (ss : List Signature) :
      w.signatures = .ok ss ↔ w.text = String.ofList (SignatureText.writeAll ss) := by
    rw [signatures_eq_ok_iff, ← String.toList_inj, String.toList_ofList]
  refine ⟨hread, ?_⟩
  cases hfault : SignatureText.readAll w.chars with
  | ok ss => exact .inl ⟨ss, (hread ss).mp (by rw [signatures, hfault])⟩
  | error fault =>
    cases SignatureText.blames_of_readAll hfault with
    | malformed =>
      refine .inr (.inr ?_)
      rw [signatures, hfault]
      rfl
    | @unknownSpace c _ hmem hc =>
      refine .inr (.inl ⟨c, hmem, Space.ofLetter?_eq_none_iff.mp hc, ?_⟩)
      rw [signatures, hfault]
      rfl

end TensorContraction
