import TensorContraction.Antisymmetry.Symmetrization
import TensorContraction.Proofs.Check

/-!
# Origins as a pattern

Symmetrizing asks of an origin only whether there is one and whether it is that of another
index; which tensor and which slot it names shows nowhere.  Products in which the indices of
a result have their origins alike therefore need the same symmetrization, or fail to have one
for the same reason.

## Main definitions

* `Origin.Alike` — products in which some indices have their origins alike.

## Main results

* `Symmetrization.pairs_congr` — alike, they give the same pairs.
* `Symmetrization.ofContraction_congr` — and the same symmetrization.
-/

namespace TensorContraction

/-- A group has an index of some key. -/
def Group.HasKey (g : Group) (k : Key) : Prop := k ∈ g.entries.map Index.key

instance (g : Group) (k : Key) : Decidable (g.HasKey k) := inferInstanceAs (Decidable (_ ∈ _))

namespace Origin

variable {tensors tensors' : List Tensor} {xs ys : List Index}

/-! ### Slots -/

/-- The slots of some tensors, each with its group, in order. -/
def slots (tensors : List Tensor) : List (Group × Origin) :=
  tensors.zipIdx.flatMap fun (t, i) => t.groups.zipIdx.map fun (g, j) => (g, ⟨i, j⟩)

theorem table_eq (tensors : List Tensor) :
    table tensors = (slots tensors).flatMap fun p => p.1.entries.map fun x => (x.key, p.2) := by
  rw [table, slots, List.flatMap_assoc]
  simp only [List.flatMap_map]

theorem slots_map_fst (tensors : List Tensor) :
    (slots tensors).map Prod.fst = tensors.flatMap (·.groups) := by
  have hgroups (p : Tensor × Nat) :
      (p.1.groups.zipIdx.map fun q => (q.1, Origin.mk p.2 q.2)).map Prod.fst = p.1.groups := by
    rw [List.map_map]
    exact List.zipIdx_map_fst 0 p.1.groups
  rw [slots, List.map_flatMap]
  simp only [hgroups]
  rw [← List.flatMap_map, List.zipIdx_map_fst]

theorem mem_slots_iff {g : Group} {o : Origin} :
    (g, o) ∈ slots tensors ↔ ∃ t, tensors[o.tensor]? = some t ∧ t.groups[o.slot]? = some g := by
  obtain ⟨i, j⟩ := o
  simp [slots, List.mem_zipIdx_iff_getElem?]

theorem lookup_keys (xs : List Index) (o : Origin) (k : Key) :
    (xs.map fun x => (x.key, o)).lookup k = if k ∈ xs.map Index.key then some o else none := by
  induction xs with
  | nil => rfl
  | cons x xs ih =>
    rw [List.map_cons, List.lookup_cons, ih, List.map_cons]
    by_cases h : k = x.key
    · simp [h]
    · simp [h, beq_false_of_ne h]

/-- **The origin of an index is the first slot whose group has its key.** -/
theorem of?_eq_find? (tensors : List Tensor) (x : Index) :
    of? tensors x = ((slots tensors).find? fun p => decide (p.1.HasKey x.key)).map Prod.snd := by
  rw [of?, table_eq]
  induction slots tensors with
  | nil => rfl
  | cons p slots ih =>
    rw [List.flatMap_cons, List.lookup_append, lookup_keys, ih, List.find?_cons]
    by_cases h : p.1.HasKey x.key
    · rw [if_pos (show x.key ∈ p.1.entries.map Index.key from h), decide_eq_true h]
      rfl
    · rw [if_neg (show x.key ∉ p.1.entries.map Index.key from h), decide_eq_false h]
      rfl

/-! ### Patterns -/

/-- Products in which each of some indices has an origin or has none alike, and any two of
them share it or do not alike. -/
structure Alike (tensors tensors' : List Tensor) (xs : List Index) : Prop where
  /-- An index has an origin in both or in neither. -/
  eq_none_iff : ∀ x ∈ xs, of? tensors x = none ↔ of? tensors' x = none
  /-- Two indices have one origin in both or in neither. -/
  eq_iff : ∀ x ∈ xs, ∀ y ∈ xs, of? tensors x = of? tensors y ↔ of? tensors' x = of? tensors' y

namespace Alike

theorem mono (h : Alike tensors tensors' ys) (hxs : xs ⊆ ys) : Alike tensors tensors' xs where
  eq_none_iff x hx := h.eq_none_iff x (hxs hx)
  eq_iff x hx y hy := h.eq_iff x (hxs hx) y (hxs hy)

theorem of_table_eq (h : table tensors = table tensors') (xs : List Index) :
    Alike tensors tensors' xs := by
  have horigin : of? tensors = of? tensors' := by
    funext x
    rw [of?, of?, h]
  exact ⟨fun x _ => by rw [horigin], fun x _ y _ => by rw [horigin]⟩

end Alike
end Origin

/-! ### Pairs -/

namespace Symmetrization

variable {tensors tensors' : List Tensor} {slot : Nat} {role : Role} {xs : List Index}

/-- An index of the result, if it has an origin. -/
def checkOrigin (tensors : List Tensor) (role : Role) (x : Index) : Except Violation Index :=
  (locate tensors role x).map Prod.fst

/-- An index with its origin, whatever stands for it if there is none. -/
def withOrigin (tensors : List Tensor) (x : Index) : Index × Origin :=
  (x, (Origin.of? tensors x).getD default)

theorem locate_eq (tensors : List Tensor) (role : Role) (x : Index) :
    locate tensors role x = withOrigin tensors <$> checkOrigin tensors role x := by
  unfold checkOrigin withOrigin locate
  cases h : Origin.of? tensors x with
  | none => rfl
  | some o =>
    change Except.ok (x, o) = .ok (x, (Origin.of? tensors x).getD default)
    rw [h, Option.getD_some]

theorem checkOrigin_congr {x : Index}
    (h : Origin.of? tensors x = none ↔ Origin.of? tensors' x = none) :
    checkOrigin tensors role x = checkOrigin tensors' role x := by
  unfold checkOrigin locate
  cases hx : Origin.of? tensors x with
  | none =>
    rw [h.mp hx]
  | some o =>
    cases hx' : Origin.of? tensors' x with
    | none => exact absurd (h.mpr hx') (by rw [hx]; exact Option.some_ne_none o)
    | some o' => rfl

theorem checkOrigin_eq_ok_iff {x y : Index} :
    checkOrigin tensors role x = .ok y ↔ (Origin.of? tensors x).isSome ∧ x = y := by
  unfold checkOrigin locate
  cases h : Origin.of? tensors x with
  | none => simp [Except.map]
  | some o => simp [Except.map]

theorem mapM_checkOrigin_eq_ok_iff {ys : List Index} :
    xs.mapM (checkOrigin tensors role) = .ok ys ↔
      (∀ x ∈ xs, (Origin.of? tensors x).isSome) ∧ xs = ys := by
  rw [Check.mapM_eq_ok_iff]
  simp only [checkOrigin_eq_ok_iff]
  rw [List.forall₂_and_left, List.forall₂_eq_eq_eq]

/-- Only equality of origins enters into the pairs. -/
theorem exchangeable_congr {f g : Index → Origin}
    (h : ∀ x ∈ xs, ∀ y ∈ xs, f x = f y ↔ g x = g y) :
    exchangeable (xs.map fun x => (x, f x)) = exchangeable (xs.map fun x => (x, g x)) := by
  induction xs with
  | nil => rfl
  | cons x xs ih =>
    rw [List.map_cons, List.map_cons, exchangeable, exchangeable, List.filterMap_map,
      List.filterMap_map, ih fun y hy z hz => h y (List.mem_cons_of_mem _ hy) z
        (List.mem_cons_of_mem _ hz)]
    congr 1
    refine List.filterMap_congr fun y hy => ?_
    have hxy := h x List.mem_cons_self y (List.mem_cons_of_mem _ hy)
    simp only [Function.comp_apply, ne_eq, hxy]

theorem pairs_congr (h : Origin.Alike tensors tensors' xs) :
    pairs tensors slot role xs = pairs tensors' slot role xs := by
  have hlocate (ts : List Tensor) : xs.mapM (locate ts role) =
      List.map (withOrigin ts) <$> xs.mapM (checkOrigin ts role) :=
    Check.mapM_eq_map_mapM (locate_eq ts role) xs
  have hcheck : xs.mapM (checkOrigin tensors role) = xs.mapM (checkOrigin tensors' role) :=
    Check.mapM_congr fun x hx => checkOrigin_congr (h.eq_none_iff x hx)
  unfold pairs
  rw [hlocate, hlocate, ← hcheck]
  cases hxs : xs.mapM (checkOrigin tensors role) with
  | error e => rfl
  | ok ys =>
    obtain ⟨hsome, rfl⟩ := mapM_checkOrigin_eq_ok_iff.mp hxs
    obtain ⟨hsome', -⟩ := mapM_checkOrigin_eq_ok_iff.mp (hcheck ▸ hxs)
    have hpairs : exchangeable (xs.map (withOrigin tensors)) =
        exchangeable (xs.map (withOrigin tensors')) := by
      refine exchangeable_congr fun x hx y hy => ?_
      rw [Option.getD_inj (hsome x hx) (hsome y hy), h.eq_iff x hx y hy,
        Option.getD_inj (hsome' x hx) (hsome' y hy)]
    change (if _ then _ else Except.ok (exchangeable (xs.map (withOrigin tensors)))) = _
    rw [hpairs]
    rfl

theorem slotPairs_congr {g : Group} (h : Origin.Alike tensors tensors' g.entries) :
    slotPairs tensors slot g = slotPairs tensors' slot g := by
  unfold slotPairs
  rw [pairs_congr (h.mono (List.subset_append_left _ _)),
    pairs_congr (h.mono (List.subset_append_right _ _))]

/-- **Contractions with one result's groups and origins alike need the same symmetrization**, or fail
to have one for the same reason. -/
theorem ofContraction_congr {c c' : Contraction} (hid : c.id = c'.id)
    (hgroups : c.result.groups = c'.result.groups)
    (h : Origin.Alike c.tensors c'.tensors (c.result.groups.flatMap (·.entries))) :
    ofContraction c = ofContraction c' := by
  have hpairs : (c.result.groups.zipIdx.mapM fun (g, slot) => slotPairs c.tensors slot g) =
      c.result.groups.zipIdx.mapM fun (g, slot) => slotPairs c'.tensors slot g := by
    refine Check.mapM_congr fun p hp => slotPairs_congr (h.mono ?_)
    intro x hx
    exact List.mem_flatMap.mpr ⟨p.1, List.fst_mem_of_mem_zipIdx hp, hx⟩
  have hbuild : build c = build c' := by
    unfold build
    rw [hpairs, hgroups]
  rw [ofContraction, ofContraction, hbuild, Contraction.number, Contraction.number, hid]

end Symmetrization
end TensorContraction
