import TensorContraction.Proofs.Appearance
import TensorContraction.Proofs.Canonical
import TensorContraction.Proofs.Placement
import TensorContraction.Proofs.Transposition
import TensorContraction.Proofs.Writing
import TensorContraction.Text.Blank

/-!
# TeX that can be read back

A line of TeX joins everything by blanks: the result, the sign, the magnitude unless it is one,
the tensors, and within a tensor the indices of a string.  Names are words of any characters,
brackets and digits among them, so a line cannot be taken apart from the front.  It can be from
the end.  The last opening brackets of a line belong to the strings of its last tensor, because
no label has one, and the name in front of them begins after the last blank that is left.  With
the tensors gone, the last word is the sign or a magnitude, and only the sign has an equals sign.

Hence a text tells everything it shows: contractions with one text look alike.

## Main definitions

* `Tex.stringChars`, `Tex.factorChars`, `Tex.lineChars` — the characters of the parts of a line.
* `Record.PlainNames` — a record whose operators have names without blanks.

## Main results

* `Tex.append_stringChars_inj` — the strings of a tensor can be told from what precedes them.
* `Tex.flatMap_tensor_inj` — a run of tensors is known from its end.
* `Tex.append_factorChars_inj` — a factor is known with what precedes it.
* `Tex.document_eq_iff` — contractions have one text exactly if they look alike.
-/

namespace TensorContraction

namespace Tex

/-! ### Indices -/

/-- The characters that show an index. -/
def markChars (m : Space × Nat) : List Char :=
  (letter m.1).toList ++ '_' :: Nat.toDigits 10 (m.2 + 1)

theorem toList_label (x : Index) : (label x).toList = markChars x.mark := by
  rw [label, String.toList_append, String.toList_append, Text.toList_toString, List.append_assoc]
  rfl

theorem isAlphanum_of_mem_markChars {m : Space × Nat} {c : Char} (h : c ∈ markChars m) :
    c.isAlphanum = true ∨ c = '_' := by
  rcases List.mem_append.mp h with h | h
  · have hletter : ∀ s, ∀ c ∈ (letter s).toList, c.isAlphanum = true := by
      intro s
      cases s <;> simp [letter]
    exact .inl (hletter _ c h)
  · rcases List.mem_cons.mp h with h | h
    · exact .inr h
    · exact .inl (Bool.or_eq_true_iff.mpr (.inr (Text.isDigit_of_mem_toDigits h)))

theorem markChars_inj {m n : Space × Nat} : markChars m = markChars n ↔ m = n := by
  have hmark : ∀ s, '_' ∉ (letter s).toList := by
    intro s
    cases s <;> decide
  have hletter : ∀ s t, (letter s).toList = (letter t).toList ↔ s = t := by
    intro s t
    cases s <;> cases t <;> decide
  rw [markChars, markChars, append_cons_inj (hmark _) (hmark _), hletter, Text.toDigits_inj,
    Nat.add_right_cancel_iff, Prod.ext_iff]

/-- The characters that show some indices. -/
def labelChars (xs : List Index) : List Char :=
  [' '].intercalate (xs.map fun x => markChars x.mark)

theorem toList_labels (xs : List Index) :
    (labels xs).toList = '\x7b' :: (labelChars xs ++ ['\x7d']) := by
  have hlabel : String.toList ∘ label = fun x => markChars x.mark := funext toList_label
  rw [labels, String.toList_append, String.toList_append, String.toList_intercalate, List.map_map,
    hlabel]
  rfl

theorem notMem_labelChars {c : Char} (hc : c ≠ ' ' ∧ c.isAlphanum = false ∧ c ≠ '_')
    (xs : List Index) : c ∉ labelChars xs := by
  intro h
  rcases mem_intercalate h with h | ⟨cs, hcs, h⟩
  · exact hc.1 (List.mem_singleton.mp h)
  · obtain ⟨x, -, rfl⟩ := List.mem_map.mp hcs
    rcases isAlphanum_of_mem_markChars h with h | h
    · rw [hc.2.1] at h
      exact absurd h Bool.false_ne_true
    · exact hc.2.2 h

theorem labelChars_inj {xs ys : List Index} :
    labelChars xs = labelChars ys ↔ xs.map Index.mark = ys.map Index.mark := by
  have hword (zs : List Index) : ∀ cs ∈ zs.map (fun x => markChars x.mark), cs ≠ [] ∧ ' ' ∉ cs := by
    intro cs hcs
    obtain ⟨x, -, rfl⟩ := List.mem_map.mp hcs
    refine ⟨by simp [markChars], fun h => ?_⟩
    rcases isAlphanum_of_mem_markChars h with h | h <;> exact absurd h (by decide)
  have hmap (zs : List Index) :
      (zs.map fun x => markChars x.mark) = (zs.map Index.mark).map markChars := by
    rw [List.map_map]
    rfl
  rw [labelChars, labelChars, intercalate_inj (hword xs) (hword ys), hmap, hmap,
    List.map_inj_right fun _ _ => markChars_inj.mp]

/-! ### Tensors -/

/-- The characters that show the strings of a tensor, which follow its name. -/
def stringChars (t : Tensor) : List Char :=
  '^' :: '\x7b' :: (labelChars t.annihilators ++ '\x7d' :: '_' :: '\x7b' ::
    (labelChars t.creators ++ ['\x7d']))

theorem toList_tensor (t : Tensor) : (tensor t).toList = t.name.toList ++ stringChars t := by
  rw [tensor, String.toList_append, String.toList_append, String.toList_append,
    String.toList_append, toList_labels, toList_labels, stringChars]
  simp

/-- **What stands before the strings of a tensor can be told from them**: the last two opening
brackets belong to the strings. -/
theorem append_stringChars_inj {xs ys : List Char} {t u : Tensor} :
    xs ++ stringChars t = ys ++ stringChars u ↔
      xs = ys ∧ t.creators.map Index.mark = u.creators.map Index.mark ∧
        t.annihilators.map Index.mark = u.annihilators.map Index.mark := by
  have hcut (zs : List Char) (t : Tensor) : zs ++ stringChars t =
      ((zs ++ ['^']) ++ '\x7b' :: (labelChars t.annihilators ++ ['\x7d', '_'])) ++
        '\x7b' :: (labelChars t.creators ++ ['\x7d']) := by
    simp [stringChars]
  have hlast (t : Tensor) : '\x7b' ∉ labelChars t.creators ++ ['\x7d'] := by
    simp [notMem_labelChars]
  have hlast' (t : Tensor) : '\x7b' ∉ labelChars t.annihilators ++ ['\x7d', '_'] := by
    simp [notMem_labelChars]
  rw [hcut, hcut, append_cons_inj_last (hlast t) (hlast u),
    append_cons_inj_last (hlast' t) (hlast' u), List.append_left_inj, List.append_left_inj,
    List.append_left_inj, labelChars_inj, labelChars_inj]
  constructor
  · rintro ⟨⟨hxs, hannihilators⟩, hcreators⟩
    exact ⟨hxs, hcreators, hannihilators⟩
  · rintro ⟨hxs, hcreators, hannihilators⟩
    exact ⟨⟨hxs, hannihilators⟩, hcreators⟩

/-- A tensor after a blank is known with what stands before the blank. -/
theorem append_tensor_inj {xs ys : List Char} {t u : Tensor} (ht : ' ' ∉ t.name.toList)
    (hu : ' ' ∉ u.name.toList) :
    xs ++ ' ' :: (tensor t).toList = ys ++ ' ' :: (tensor u).toList ↔ xs = ys ∧ t.LooksLike u := by
  have hassoc (zs : List Char) (t : Tensor) : zs ++ ' ' :: (tensor t).toList =
      (zs ++ ' ' :: t.name.toList) ++ stringChars t := by
    rw [toList_tensor, List.append_assoc, List.cons_append]
  rw [hassoc, hassoc, append_stringChars_inj, append_cons_inj_last ht hu, String.toList_inj]
  constructor
  · rintro ⟨⟨hxs, hname⟩, hcreators, hannihilators⟩
    exact ⟨hxs, hname, hcreators, hannihilators⟩
  · rintro ⟨hxs, hlooks⟩
    exact ⟨⟨hxs, hlooks.name_eq⟩, hlooks.creators_eq, hlooks.annihilators_eq⟩

theorem tensor_inj {t u : Tensor} : tensor t = tensor u ↔ t.LooksLike u := by
  rw [← String.toList_inj, toList_tensor, toList_tensor, append_stringChars_inj, String.toList_inj]
  exact ⟨fun h => ⟨h.1, h.2.1, h.2.2⟩, fun h => ⟨h.name_eq, h.creators_eq, h.annihilators_eq⟩⟩

theorem getLast?_tensor (xs : List Char) (t : Tensor) :
    (xs ++ ' ' :: (tensor t).toList).getLast? = some '\x7d' := by
  have hsnoc : xs ++ ' ' :: (tensor t).toList =
      (xs ++ ' ' :: (t.name.toList ++ '^' :: '\x7b' :: (labelChars t.annihilators ++
        '\x7d' :: '_' :: '\x7b' :: labelChars t.creators))) ++ ['\x7d'] := by
    simp [toList_tensor, stringChars]
  rw [hsnoc, List.getLast?_concat]

/-- **A run of tensors is known from its end**, if what stands before it does not end like a
tensor. -/
theorem flatMap_tensor_inj {xs ys : List Char} {ts us : List Tensor}
    (hxs : xs.getLast? ≠ some '\x7d') (hys : ys.getLast? ≠ some '\x7d')
    (hts : ∀ t ∈ ts, ' ' ∉ t.name.toList) (hus : ∀ u ∈ us, ' ' ∉ u.name.toList) :
    xs ++ (ts.flatMap fun t => ' ' :: (tensor t).toList) =
        ys ++ (us.flatMap fun u => ' ' :: (tensor u).toList) →
      xs = ys ∧ List.Forall₂ Tensor.LooksLike ts us := by
  have hsnoc (zs : List Char) (vs : List Tensor) (v : Tensor) :
      zs ++ ((vs ++ [v]).flatMap fun t => ' ' :: (tensor t).toList) =
        (zs ++ vs.flatMap fun t => ' ' :: (tensor t).toList) ++ ' ' :: (tensor v).toList := by
    simp
  -- on the tensors of one run, the last one first
  induction ts using List.reverseRecOn generalizing us with
  | nil =>
    rcases us.eq_nil_or_concat' with rfl | ⟨us, u, rfl⟩
    · intro h
      exact ⟨by simpa using h, .nil⟩
    · intro h
      rw [hsnoc, List.flatMap_nil, List.append_nil] at h
      exact absurd (h ▸ getLast?_tensor _ u) hxs
  | append_singleton ts t ih =>
    rcases us.eq_nil_or_concat' with rfl | ⟨us, u, rfl⟩
    · intro h
      rw [hsnoc, List.flatMap_nil, List.append_nil] at h
      exact absurd (h ▸ getLast?_tensor _ t) hys
    · intro h
      rw [List.forall_mem_append, List.forall_mem_singleton] at hts hus
      rw [hsnoc, hsnoc, append_tensor_inj hts.2 hus.2] at h
      obtain ⟨heq, hforall⟩ := ih hts.1 hus.1 h.1
      exact ⟨heq, List.rel_append hforall (.cons h.2 .nil)⟩

/-! ### Factors -/

/-- The mark between the result and what is added to it. -/
def signChars (q : Rat) : List Char := (Coefficient.sign q).toList ++ ['=']

/-- The characters that show a factor, between the result and the tensors. -/
def factorChars (q : Rat) : List Char :=
  (Coefficient.sign q).toList ++ '=' ::
    (Coefficient.magnitudeWords q).flatMap fun w => ' ' :: w.toList

theorem factorChars_of_one {q : Rat} (h : Coefficient.magnitude q = 1) :
    factorChars q = signChars q := by
  rw [factorChars, signChars, Coefficient.magnitudeWords, if_pos h, List.flatMap_nil]

/-- A magnitude is a word of its own. -/
theorem append_factorChars_of_ne_one {q : Rat} (h : Coefficient.magnitude q ≠ 1)
    (xs : List Char) :
    xs ++ ' ' :: factorChars q = (xs ++ ' ' :: signChars q) ++
      ' ' :: (Text.ratioText (Coefficient.magnitude q)).toList := by
  rw [factorChars, signChars, Coefficient.magnitudeWords, if_neg h, List.flatMap_singleton]
  simp

theorem notMem_ratioText {c : Char} (hc : c.isDigit = false ∧ c ≠ '-' ∧ c ≠ '/') (q : Rat) :
    c ∉ (Text.ratioText q).toList := by
  intro h
  rcases Text.isDigit_of_mem_ratioText h with h | h | h
  · rw [hc.1] at h
    exact Bool.false_ne_true h
  · exact hc.2.1 h
  · exact hc.2.2 h

theorem sign_eq_iff {p q : Rat} :
    (Coefficient.sign p).toList = (Coefficient.sign q).toList ↔ (p < 0 ↔ q < 0) := by
  unfold Coefficient.sign
  by_cases hp : p < 0 <;> by_cases hq : q < 0 <;> simp [hp, hq]

/-- A factor is known by its sign and its magnitude. -/
theorem eq_of_magnitude_eq {p q : Rat} (hsign : p < 0 ↔ q < 0)
    (h : Coefficient.magnitude p = Coefficient.magnitude q) : p = q := by
  unfold Coefficient.magnitude at h
  by_cases hp : p < 0
  · rw [if_pos hp, if_pos (hsign.mp hp)] at h
    exact neg_inj.mp h
  · rwa [if_neg hp, if_neg fun hq => hp (hsign.mpr hq)] at h

theorem notMem_sign {c : Char} (hc : c ≠ '-' ∧ c ≠ '+') (q : Rat) :
    c ∉ (Coefficient.sign q).toList := by
  unfold Coefficient.sign
  split
  · simpa using hc.1
  · simpa using hc.2

theorem blank_notMem_signChars (q : Rat) : ' ' ∉ signChars q := by
  rw [signChars, List.mem_append]
  rintro (h | h)
  · exact notMem_sign (by decide) q h
  · simp at h

theorem signChars_inj {p q : Rat} : signChars p = signChars q ↔ (p < 0 ↔ q < 0) := by
  rw [signChars, signChars, List.append_left_inj, sign_eq_iff]

/-- No magnitude is taken for a sign. -/
theorem signChars_ne_ratioText (p q : Rat) : signChars p ≠ (Text.ratioText q).toList := by
  intro h
  have hmem : '=' ∈ signChars p := List.mem_append_right _ List.mem_cons_self
  exact notMem_ratioText (by decide) q (h ▸ hmem)

/-- **A factor after a blank is known with what stands before the blank.** -/
theorem append_factorChars_inj {xs ys : List Char} {p q : Rat} :
    xs ++ ' ' :: factorChars p = ys ++ ' ' :: factorChars q ↔ xs = ys ∧ p = q := by
  constructor
  · intro h
    have hratio (q : Rat) : ' ' ∉ (Text.ratioText q).toList := notMem_ratioText (by decide) q
    have hsign := blank_notMem_signChars
    by_cases hp : Coefficient.magnitude p = 1
    · rw [factorChars_of_one hp] at h
      by_cases hq : Coefficient.magnitude q = 1
      · rw [factorChars_of_one hq, append_cons_inj_last (hsign p) (hsign q), signChars_inj] at h
        exact ⟨h.1, eq_of_magnitude_eq h.2 (hp.trans hq.symm)⟩
      · rw [append_factorChars_of_ne_one hq, append_cons_inj_last (hsign p) (hratio _)] at h
        exact absurd h.2 (signChars_ne_ratioText _ _)
    · rw [append_factorChars_of_ne_one hp] at h
      by_cases hq : Coefficient.magnitude q = 1
      · rw [factorChars_of_one hq, append_cons_inj_last (hratio _) (hsign q)] at h
        exact absurd h.2.symm (signChars_ne_ratioText _ _)
      · rw [append_factorChars_of_ne_one hq, append_cons_inj_last (hratio _) (hratio _),
          append_cons_inj_last (hsign p) (hsign q), signChars_inj, Text.ratioText_inj] at h
        exact ⟨h.1.1, eq_of_magnitude_eq h.1.2 h.2⟩
  · rintro ⟨rfl, rfl⟩
    rfl

theorem notMem_factorChars {c : Char} (hc : (c ≠ '-' ∧ c ≠ '+') ∧ c ≠ '=' ∧ c ≠ ' ' ∧
    c.isDigit = false ∧ c ≠ '/') (q : Rat) : c ∉ factorChars q := by
  obtain ⟨hsign, hequals, hblank, hdigit, hslash⟩ := hc
  by_cases hq : Coefficient.magnitude q = 1
  · simp [factorChars_of_one hq, signChars, notMem_sign hsign, hequals]
  · have h := append_factorChars_of_ne_one hq []
    rw [List.nil_append, List.nil_append] at h
    intro hmem
    have hmem := h ▸ List.mem_cons_of_mem ' ' hmem
    simp [signChars, notMem_sign hsign, hequals, hblank,
      notMem_ratioText ⟨hdigit, hsign.1, hslash⟩] at hmem

/-! ### Lines -/

/-- The characters of a line before its end. -/
def lineChars (c : Contraction) : List Char :=
  ((tensor c.result).toList ++ ' ' :: factorChars c.factor) ++
    c.tensors.flatMap fun t => ' ' :: (tensor t).toList

theorem toList_line (c : Contraction) : (line c).toList = lineChars c ++ ['\n'] := by
  rw [line, String.toList_append, String.toList_intercalate, List.cons_append, List.cons_append,
    List.map_cons, List.map_cons, intercalate_cons, lineChars, factorChars]
  simp [List.flatMap_map]

/-- A factor does not end like a tensor. -/
theorem getLast?_factor (xs : List Char) (q : Rat) :
    (xs ++ ' ' :: factorChars q).getLast? ≠ some '\x7d' := by
  intro h
  rw [List.getLast?_append_of_ne_nil _ (List.cons_ne_nil _ _)] at h
  rcases List.mem_cons.mp (List.mem_of_getLast? h) with h | h
  · exact absurd h (by decide)
  · exact notMem_factorChars (by decide) q h

end Tex

/-! ### Names -/

/-- A contraction whose tensors have names without blanks. -/
def Contraction.PlainNames (c : Contraction) : Prop :=
  ∀ t ∈ c.result :: c.tensors, ∀ ch ∈ t.name.toList, Text.isBlank ch = false

/-- A record whose operators have names without blanks. -/
def Record.PlainNames (r : Record) : Prop :=
  ∀ o ∈ r.result :: r.vertices, ∀ ch ∈ o.name.toList, Text.isBlank ch = false

instance (r : Record) : Decidable r.PlainNames :=
  have (o : Operator) : Decidable (∀ ch ∈ o.name.toList, Text.isBlank ch = false) :=
    List.decidableBAll _ _
  List.decidableBAll _ _

theorem Contraction.PlainNames.notMem {c : Contraction} (h : c.PlainNames) {ch : Char}
    (hch : Text.isBlank ch = true) : ∀ t ∈ c.result :: c.tensors, ch ∉ t.name.toList := by
  intro t ht hmem
  rw [h t ht ch hmem] at hch
  exact Bool.false_ne_true hch

/-- Tensors take their names from operators. -/
theorem Contraction.plainNames_of_ofRecord {r : Record} {c : Contraction}
    (hr : ofRecord r = .ok c) (h : r.PlainNames) : c.PlainNames := by
  obtain ⟨vs, hy⟩ := ofRecord_eq_ok_iff.mp hr
  obtain ⟨hresult, hvertices⟩ := List.forall_mem_cons.mp h
  refine List.forall_mem_cons.mpr ⟨?_, fun t ht => ?_⟩
  · rw [hy.resultName_eq]
    exact hresult
  · obtain ⟨s, hs, hjoins⟩ := Check.exists_left_of_forall₂ hy.tensors ht
    have hfirst : s.first ∈ vs := (SuperVertex.flatMap_members_perm vs).mem_iff.mp
      (List.mem_flatMap.mpr ⟨s, hs, List.mem_cons_self⟩)
    obtain ⟨number, o, -, ho, hw⟩ := hy.hasVertices.exists_operator hfirst
    rw [hjoins.name_eq, hw.name_eq]
    exact hvertices o (List.mem_of_getElem? ho)

namespace Tex

theorem lineChars_eq {c d : Contraction} (h : c.LooksLike d) : lineChars c = lineChars d := by
  have hline := congrArg String.toList h.line_eq
  rwa [toList_line, toList_line, List.append_left_inj] at hline

/-- **A line is read in one way only.** -/
theorem lineChars_inj {c d : Contraction} (hc : c.PlainNames) (hd : d.PlainNames) :
    lineChars c = lineChars d ↔ c.LooksLike d := by
  have hblank {c : Contraction} (hc : c.PlainNames) : ∀ t ∈ c.tensors, ' ' ∉ t.name.toList :=
    (List.forall_mem_cons.mp (hc.notMem (by decide))).2
  refine ⟨fun h => ?_, lineChars_eq⟩
  obtain ⟨hhead, htensors⟩ := flatMap_tensor_inj (getLast?_factor _ _) (getLast?_factor _ _)
    (hblank hc) (hblank hd) h
  obtain ⟨hresult, hfactor⟩ := append_factorChars_inj.mp hhead
  exact ⟨hfactor, tensor_inj.mp (String.toList_inj.mp hresult), htensors⟩

theorem newline_notMem_tensor {t : Tensor} (h : '\n' ∉ t.name.toList) :
    '\n' ∉ (tensor t).toList := by
  simp [toList_tensor, stringChars, h, notMem_labelChars]

theorem newline_notMem_lineChars {c : Contraction} (h : c.PlainNames) : '\n' ∉ lineChars c := by
  have hname := fun t ht => newline_notMem_tensor (h.notMem (by decide) t ht)
  obtain ⟨hresult, htensors⟩ := List.forall_mem_cons.mp hname
  have hfactor : '\n' ∉ factorChars c.factor := notMem_factorChars (by decide) _
  simpa [lineChars, hresult, hfactor] using htensors

/-! ### Documents -/

theorem toList_document (cs : List Contraction) :
    (document cs).toList = cs.flatMap fun c => lineChars c ++ ['\n'] := by
  rw [document, String.toList_join, List.flatMap_map]
  simp only [toList_line]

/-- **TeX is unambiguous.**  Two lists of contractions have one text exactly if the contractions
look alike, one by one. -/
theorem document_eq_iff {cs ds : List Contraction}
    (h : ∀ c ∈ cs ++ ds, ∃ r, Contraction.ofRecord r = .ok c ∧ r.PlainNames) :
    document cs = document ds ↔ List.Forall₂ Contraction.LooksLike cs ds := by
  have hplain : ∀ c ∈ cs ++ ds, c.PlainNames := by
    intro c hc
    obtain ⟨r, hr, hnames⟩ := h c hc
    exact Contraction.plainNames_of_ofRecord hr hnames
  obtain ⟨hcs, hds⟩ := List.forall_mem_append.mp hplain
  rw [← String.toList_inj, toList_document, toList_document,
    flatMap_ended_inj (fun c hc => newline_notMem_lineChars (hcs c hc))
      fun d hd => newline_notMem_lineChars (hds d hd)]
  constructor
  · intro hlines
    rw [← List.forall₂_eq_eq_eq, List.forall₂_map_left_iff, List.forall₂_map_right_iff] at hlines
    refine List.forall₂_iff_zip.mpr ⟨hlines.length_eq, fun hcd => ?_⟩
    obtain ⟨hc, hd⟩ := List.of_mem_zip hcd
    exact (lineChars_inj (hcs _ hc) (hds _ hd)).mp (List.forall₂_zip hlines hcd)
  · intro hlooks
    exact Check.map_eq_of_forall₂ (fun _ _ hcd => lineChars_eq hcd) hlooks

/-- A transposed operator looks like the other one with its lists exchanged. -/
theorem crossing_document_eq_iff :
    (∀ c ∈ [Contraction.crossingContraction] ++ [Contraction.crossingContraction.withoutFlags],
        ∃ r, Contraction.ofRecord r = .ok c ∧ r.PlainNames) ∧
      (document [Contraction.crossingContraction] =
          document [Contraction.crossingContraction.withoutFlags] ↔
        List.Forall₂ Contraction.LooksLike [Contraction.crossingContraction]
          [Contraction.crossingContraction.withoutFlags]) := by
  have hbuilt : ∀ c ∈ [Contraction.crossingContraction] ++
      [Contraction.crossingContraction.withoutFlags],
        ∃ r, Contraction.ofRecord r = .ok c ∧ r.PlainNames := by
    intro c hc
    rcases List.mem_cons.mp hc with rfl | hc
    · exact ⟨Contraction.crossing, Contraction.ofRecord_crossing, by decide⟩
    · obtain rfl := List.mem_singleton.mp hc
      exact ⟨Contraction.crossing.shown, by decide +kernel, by decide⟩
  exact ⟨hbuilt, document_eq_iff hbuilt⟩

end Tex
end TensorContraction
