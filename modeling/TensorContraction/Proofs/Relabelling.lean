import TensorContraction.Proofs.MaximalExchange
import TensorContraction.Proofs.Ratio
import TensorContraction.Proofs.Renumbering

/-!
# Symmetrizing in other numbers

Renumbering indices should renumber the groups that are found among them and leave all counts
alone.  It does if origins are plain, because then the groups are all the largest sets of
exchangeable indices, which no number enters into.  Otherwise the order in which groups are
merged decides, and that is the order of the numbers.

## Main definitions

* `Symmetrization.groupSets` — groups as a set of sets.
* `Symmetrization.Relabelled` — a symmetrization in other numbers.
* `Contraction.SymmetrizedAlike` — contractions that need the same, up to numbers.

## Main results

* `Symmetrization.exists_symmetrizedAlike` — with plain origins numbers are labels.
-/

namespace TensorContraction

namespace Contraction

variable {r : Record} {c : Contraction} {f : Space → Nat → Nat} {role : Role} {slot : Nat}
  {s : Space} {x y : Index} {k : Finset Index}

/-! ### Exchanges in other numbers -/

theorem externals_renumber (f : Space → Nat → Nat) (c : Contraction) (slot : Nat) (role : Role)
    (s : Space) : (c.renumber f).externals slot role s =
      (c.externals slot role s).map (Index.renumber f) := by
  rw [externals, renumber, held_renumber, ofSpace_renumber, externals]

theorem Exchanges.mem_left (h : c.Exchanges role x y) : x ∈ c.externalIndices := by
  obtain ⟨slot, s, hx, -⟩ := h
  exact (Contraction.mem_externals.mp hx).1

theorem Renumbers.mem_externals_iff (h : c.Renumbers f) (hx : x ∈ c.externalIndices) :
    x.renumber f ∈ (c.renumber f).externals slot role s ↔ x ∈ c.externals slot role s := by
  rw [externals_renumber, List.mem_map]
  constructor
  · intro hy
    obtain ⟨y, hy, heq⟩ := hy
    have hye : y ∈ c.indices := List.mem_append_right _ (mem_externals.mp hy).1
    exact h.eq_of_renumber_eq hye (List.mem_append_right _ hx) heq ▸ hy
  · intro hx
    exact ⟨x, hx, rfl⟩

theorem Renumbers.inj (h : c.Renumbers f) (hx : x ∈ c.externalIndices)
    (hy : y ∈ c.externalIndices) : x.renumber f = y.renumber f ↔ x = y :=
  ⟨h.eq_of_renumber_eq (List.mem_append_right _ hx) (List.mem_append_right _ hy),
    congrArg (Index.renumber f)⟩

/-- Indices are exchanged exactly if they were in the old numbers. -/
theorem exchanges_renumber_iff (hr : ofRecord r = .ok c) (h : c.Renumbers f)
    (hx : x ∈ c.externalIndices) (hy : y ∈ c.externalIndices) :
    (c.renumber f).Exchanges role (x.renumber f) (y.renumber f) ↔ c.Exchanges role x y := by
  unfold Exchanges
  rw [Origin.of?_renumber hr h hx, Origin.of?_renumber hr h hy]
  simp only [h.mem_externals_iff hx, h.mem_externals_iff hy]

theorem PlainOrigins.renumber (hplain : c.PlainOrigins role) (hr : ofRecord r = .ok c)
    (h : c.Renumbers f) : (c.renumber f).PlainOrigins role := by
  have horigin {slot : Nat} {s : Space} {x : Index} (hx : x ∈ c.externals slot role s) :=
    Origin.of?_renumber hr h (mem_externals.mp hx).1
  have hshares {slot : Nat} {s : Space} {x : Index} (hx : x ∈ c.externals slot role s)
      (hshared : (c.renumber f).SharesOrigin role (x.renumber f)) : c.SharesOrigin role x := by
    obtain ⟨y', hy', hne, hsame⟩ := hshared
    rw [externals_renumber, List.mem_map] at hy'
    obtain ⟨y, hy, rfl⟩ := hy'
    rw [horigin hx, horigin hy] at hsame
    exact ⟨y, hy, fun hxy => hne (congrArg _ hxy), hsame⟩
  intro slot s
  rw [externals_renumber]
  simp only [List.forall_mem_map]
  refine (hplain slot s).imp ?_ ?_
  · intro htwo x hx y hy z hz
    rw [horigin hx, horigin hy, horigin hz]
    exact htwo x hx y hy z hz
  · intro hone x hx y hy hxs hys
    rw [horigin hx, horigin hy]
    exact hone x hx y hy (hshares hx hxs) (hshares hy hys)

theorem MaximalExchange.mem_externalIndices (hk : c.MaximalExchange role k) (hx : x ∈ k) :
    x ∈ c.externalIndices := by
  obtain ⟨slot, s, hplace⟩ := hk.exists_place
  exact (mem_externals.mp (hplace x hx)).1

theorem MaximalExchange.renumber (hk : c.MaximalExchange role k) (hr : ofRecord r = .ok c)
    (h : c.Renumbers f) : (c.renumber f).MaximalExchange role (k.image (Index.renumber f)) := by
  have hmem (x : Index) (hx : x ∈ k) : x ∈ c.externalIndices := hk.mem_externalIndices hx
  constructor
  case exchanges =>
    rw [Finset.forall_mem_image]
    intro x hx
    rw [Finset.forall_mem_image]
    intro y hy hxy
    rw [exchanges_renumber_iff hr h (hmem x hx) (hmem y hy)]
    exact hk.exchanges x hx y hy fun heq => hxy (congrArg _ heq)
  case exists_exchanges =>
    obtain ⟨x, hx, y, hy, hxy⟩ := hk.exists_exchanges
    exact ⟨_, Finset.mem_image_of_mem _ hx, _, Finset.mem_image_of_mem _ hy,
      (exchanges_renumber_iff hr h (hmem x hx) (hmem y hy)).mpr hxy⟩
  case maximal =>
    intro y' hy'
    rw [Finset.forall_mem_image] at hy'
    obtain ⟨a, ha, -⟩ := hk.exists_exchanges
    by_cases hay : a.renumber f = y'
    · exact hay ▸ Finset.mem_image_of_mem _ ha
    · -- the index is exchanged with a member, so it is an old index in new numbers
      obtain ⟨slot, s, -, hye, -⟩ := hy' ha hay
      rw [externals_renumber, List.mem_map] at hye
      obtain ⟨y, hy, rfl⟩ := hye
      have hyc := (mem_externals.mp hy).1
      refine Finset.mem_image_of_mem _ (hk.maximal y fun x hx hxy => ?_)
      rw [← exchanges_renumber_iff hr h (hmem x hx) hyc]
      exact hy' hx fun heq => hxy ((h.inj (hmem x hx) hyc).mp heq)

/-- A largest set in new numbers is one in old numbers. -/
theorem exists_maximalExchange (hr : ofRecord r = .ok c) (h : c.Renumbers f)
    (hk : (c.renumber f).MaximalExchange role k) :
    ∃ k₀, c.MaximalExchange role k₀ ∧ k₀.image (Index.renumber f) = k := by
  have hold (x' : Index) (hx' : x' ∈ k) : ∃ x ∈ c.externalIndices, x.renumber f = x' :=
    List.mem_map.mp (hk.mem_externalIndices hx')
  let k₀ := c.externalIndices.toFinset.filter fun x => x.renumber f ∈ k
  have hmem (x : Index) : x ∈ k₀ ↔ x ∈ c.externalIndices ∧ x.renumber f ∈ k := by
    rw [Finset.mem_filter, List.mem_toFinset]
  refine ⟨k₀, ?_, ?_⟩
  · constructor
    case exchanges =>
      intro x hx y hy hxy
      obtain ⟨hxc, hxk⟩ := (hmem x).mp hx
      obtain ⟨hyc, hyk⟩ := (hmem y).mp hy
      rw [← exchanges_renumber_iff hr h hxc hyc]
      exact hk.exchanges _ hxk _ hyk fun heq => hxy ((h.inj hxc hyc).mp heq)
    case exists_exchanges =>
      obtain ⟨x', hx', y', hy', hxy⟩ := hk.exists_exchanges
      obtain ⟨x, hx, rfl⟩ := hold x' hx'
      obtain ⟨y, hy, rfl⟩ := hold y' hy'
      exact ⟨x, (hmem x).mpr ⟨hx, hx'⟩, y, (hmem y).mpr ⟨hy, hy'⟩,
        (exchanges_renumber_iff hr h hx hy).mp hxy⟩
    case maximal =>
      intro y hy
      obtain ⟨a', ha', -⟩ := hk.exists_exchanges
      obtain ⟨a, ha, rfl⟩ := hold a' ha'
      by_cases hay : a = y
      · exact hay ▸ (hmem a).mpr ⟨ha, ha'⟩
      · have hyc := (hy a ((hmem a).mpr ⟨ha, ha'⟩) hay).symm.mem_left
        refine (hmem y).mpr ⟨hyc, hk.maximal _ fun x' hx' hxy => ?_⟩
        obtain ⟨x, hx, rfl⟩ := hold x' hx'
        rw [exchanges_renumber_iff hr h hx hyc]
        exact hy x ((hmem x).mpr ⟨hx, hx'⟩) fun heq => hxy (congrArg _ heq)
  · ext x'
    rw [Finset.mem_image]
    constructor
    · intro hx'
      obtain ⟨x, hx, rfl⟩ := hx'
      exact ((hmem x).mp hx).2
    · intro hx'
      obtain ⟨x, hx, rfl⟩ := hold x' hx'
      exact ⟨x, (hmem x).mpr ⟨hx, hx'⟩, rfl⟩

/-! ### Groups in other numbers -/

section Groups

variable {groups groups' : List (List Index)}

theorem AntisymmetrizedBy.mem_externalIndices (hg : c.AntisymmetrizedBy role groups)
    (hplain : c.PlainOrigins role) (hk : k ∈ groups.map List.toFinset) :
    ∀ x ∈ k, x ∈ c.externalIndices := fun _ hx =>
  ((hg.mem_toFinset_iff hplain).mp hk).mem_externalIndices hx

/-- **With plain origins the groups are the old ones in new numbers.** -/
theorem AntisymmetrizedBy.perm_renumber (hr : ofRecord r = .ok c) (h : c.Renumbers f)
    (hplain : c.PlainOrigins role) (hg : c.AntisymmetrizedBy role groups)
    (hg' : (c.renumber f).AntisymmetrizedBy role groups') :
    (groups'.map List.toFinset).Perm
      ((groups.map List.toFinset).map (Finset.image (Index.renumber f))) := by
  have hinj : ∀ k ∈ groups.map List.toFinset, ∀ l ∈ groups.map List.toFinset,
      k.image (Index.renumber f) = l.image (Index.renumber f) → k ⊆ l := by
    intro k hk l hl heq x hx
    obtain ⟨y, hy, hxy⟩ := Finset.mem_image.mp (heq ▸ Finset.mem_image_of_mem _ hx)
    have hxc := hg.mem_externalIndices hplain hk x hx
    have hyc := hg.mem_externalIndices hplain hl y hy
    exact (h.inj hyc hxc).mp hxy ▸ hy
  have hnodup : ((groups.map List.toFinset).map (Finset.image (Index.renumber f))).Nodup :=
    hg.nodup_toFinset.map_on fun k hk l hl heq =>
      Finset.Subset.antisymm (hinj k hk l hl heq) (hinj l hl k hk heq.symm)
  rw [List.perm_ext_iff_of_nodup hg'.nodup_toFinset hnodup]
  intro k'
  rw [hg'.mem_toFinset_iff (hplain.renumber hr h), List.mem_map]
  constructor
  · intro hk'
    obtain ⟨k, hk, rfl⟩ := exists_maximalExchange hr h hk'
    exact ⟨k, (hg.mem_toFinset_iff hplain).mpr hk, rfl⟩
  · intro hk'
    obtain ⟨k, hk, rfl⟩ := hk'
    exact ((hg.mem_toFinset_iff hplain).mp hk).renumber hr h

theorem AntisymmetrizedBy.orders_eq (hg : c.AntisymmetrizedBy role groups) :
    Symmetrization.orders groups =
      ((groups.map List.toFinset).map fun k => k.card.factorial).prod := by
  rw [Symmetrization.orders_eq_prod, List.map_map]
  refine congrArg List.prod (List.map_congr_left fun g hgm => ?_)
  rw [Function.comp_apply, List.toFinset_card_of_nodup (hg.nodup hgm)]

theorem AntisymmetrizedBy.orders_renumber (hr : ofRecord r = .ok c) (h : c.Renumbers f)
    (hplain : c.PlainOrigins role) (hg : c.AntisymmetrizedBy role groups)
    (hg' : (c.renumber f).AntisymmetrizedBy role groups') :
    Symmetrization.orders groups' = Symmetrization.orders groups := by
  rw [hg.orders_eq, hg'.orders_eq, ((hg.perm_renumber hr h hplain hg').map _).prod_eq, List.map_map]
  refine congrArg List.prod (List.map_congr_left fun k hk => ?_)
  have hmem := hg.mem_externalIndices hplain hk
  rw [Function.comp_apply, Finset.card_image_of_injOn fun x hx y hy heq =>
    (h.inj (hmem x hx) (hmem y hy)).mp heq]

end Groups

/-! ### Symmetrizing -/

theorem exists_finds_renumber_iff (hr : ofRecord r = .ok c) (h : c.Renumbers f) :
    (∃ found, Symmetrization.Finds (c.renumber f) found) ↔
      ∃ found, Symmetrization.Finds c found := by
  obtain ⟨vs, hy⟩ := ofRecord_eq_ok_iff.mp hr
  have hgroups : (c.renumber f).result.groups =
      c.result.groups.map (Ladder.map (Index.renumber f)) := rfl
  have hmixed (xs : List Index) : Symmetrization.mixed (xs.map (Index.renumber f)) =
      Symmetrization.mixed xs := by
    cases xs with
    | nil => rfl
    | cons x xs =>
      rw [List.map_cons, Symmetrization.mixed, Symmetrization.mixed, List.any_map]
      rfl
  rw [Symmetrization.exists_finds_iff, Symmetrization.exists_finds_iff, hgroups,
    List.forall_mem_map]
  refine forall₂_congr fun g hg => forall_congr' fun role => ?_
  rw [Ladder.on_map, hmixed, List.length_map, List.forall_mem_map]
  refine and_congr_left fun _ => forall₂_congr fun x hx => ?_
  have hxc : x ∈ c.externalIndices :=
    hy.resultEntries_perm.mem_iff.mp (List.mem_flatMap.mpr
      ⟨g, hg, Ladder.mem_entries_iff.mpr ⟨role, hx⟩⟩)
  rw [Origin.of?_renumber hr h hxc]

end Contraction

namespace Symmetrization

/-- Groups as a set of sets. -/
def groupSets (groups : List (List Index)) : Finset (Finset Index) :=
  (groups.map List.toFinset).toFinset

/-- A symmetrization in other numbers: the counts are the same, and the groups are renumbered. -/
structure Relabelled (f : Space → Nat → Nat) (s s' : Symmetrization) : Prop where
  /-- The same is implied. -/
  implied_eq : s'.implied = s.implied
  /-- The same is required. -/
  required_eq : s'.required = s.required
  /-- Terms are divided by the same number. -/
  prefactor_eq : s'.prefactor = s.prefactor
  /-- The groups are those sets of indices in new numbers. -/
  groupSets_eq : ∀ role, groupSets (s'.groups.on role) =
    (groupSets (s.groups.on role)).image (Finset.image (Index.renumber f))

variable {r : Record} {c : Contraction} {f : Space → Nat → Nat}
  {found found' : List (Ladder (Index × Index))}

theorem implied_renumber (f : Space → Nat → Nat) (c : Contraction)
    (found found' : List (Ladder (Index × Index))) :
    (ofFound (c.renumber f) found').implied = (ofFound c found).implied := by
  have hgroups : (c.renumber f).result.groups =
      c.result.groups.map (Ladder.map (Index.renumber f)) := rfl
  rw [ofFound_implied, ofFound_implied, hgroups, orders_eq_prod, orders_eq_prod, List.flatMap_map,
    List.map_flatMap, List.map_flatMap]
  simp [Ladder.map]

theorem relabelled_ofFound (hr : Contraction.ofRecord r = .ok c) (h : c.Renumbers f)
    (hplain : ∀ role, c.PlainOrigins role) (hf : Finds c found)
    (hf' : Finds (c.renumber f) found')
    (hdealt' : (c.renumber f).ResultDealt) :
    Relabelled f (ofFound c found) (ofFound (c.renumber f) found') := by
  have hgroups (role : Role) :
      c.AntisymmetrizedBy role ((ofFound c found).groups.on role) := by
    rw [ofFound_groups_on]
    exact hf.antisymmetrizedBy (Contraction.resultDealt_of_ofRecord hr) role
  have hgroups' (role : Role) :
      (c.renumber f).AntisymmetrizedBy role ((ofFound (c.renumber f) found').groups.on role) := by
    rw [ofFound_groups_on]
    exact hf'.antisymmetrizedBy hdealt' role
  have hrequired : (ofFound (c.renumber f) found').required = (ofFound c found).required := by
    rw [ofFound_required, ofFound_required,
      (hgroups .creator).orders_renumber hr h (hplain _) (hgroups' _),
      (hgroups .annihilator).orders_renumber hr h (hplain _) (hgroups' _)]
  have himplied := implied_renumber f c found found'
  refine ⟨himplied, hrequired, by rw [prefactor, himplied, hrequired, prefactor], fun role => ?_⟩
  ext k
  have hperm := (hgroups role).perm_renumber hr h (hplain role) (hgroups' role)
  rw [groupSets, List.mem_toFinset, hperm.mem_iff, List.mem_map, Finset.mem_image]
  simp only [groupSets, List.mem_toFinset]

end Symmetrization

/-! ### Numbers are labels -/

/-- Contractions that need the same symmetrization, up to numbers, if any. -/
structure Contraction.SymmetrizedAlike (f : Space → Nat → Nat) (c c' : Contraction) : Prop where
  /-- Both can be symmetrized, or neither. -/
  exists_iff : (∃ s', Symmetrization.ofContraction c' = .ok s') ↔
    ∃ s, Symmetrization.ofContraction c = .ok s
  /-- What they need differs in numbers only. -/
  relabelled : ∀ s s', Symmetrization.ofContraction c = .ok s →
    Symmetrization.ofContraction c' = .ok s' → Symmetrization.Relabelled f s s'

namespace Symmetrization

/-- **With plain origins the numbers of indices are only labels.** -/
theorem exists_symmetrizedAlike {r : Record} {c : Contraction} {ρ : Int → Int → Int}
    (hr : Contraction.ofRecord r = .ok c) (hρ : r.Renumbers ρ)
    (hplain : ∀ role, c.PlainOrigins role) :
    ∃ c', Contraction.ofRecord (r.renumber ρ) = .ok c' ∧ c.SymmetrizedAlike (fromZero ρ) c' := by
  have hr' := Contraction.ofRecord_renumber hr hρ
  have h := Contraction.renumbers_of_ofRecord hr hρ
  have hdealt' := Contraction.resultDealt_of_ofRecord hr'
  refine ⟨_, hr', ?_, ?_⟩
  · rw [exists_ofContraction_iff, exists_ofContraction_iff]
    constructor
    · intro hex
      obtain ⟨found', hf', hdvd⟩ := hex
      obtain ⟨found, hf⟩ := (Contraction.exists_finds_renumber_iff hr h).mp ⟨found', hf'⟩
      have hsame := relabelled_ofFound hr h hplain hf hf' hdealt'
      rw [hsame.required_eq, hsame.implied_eq] at hdvd
      exact ⟨found, hf, hdvd⟩
    · intro hex
      obtain ⟨found, hf, hdvd⟩ := hex
      obtain ⟨found', hf'⟩ := (Contraction.exists_finds_renumber_iff hr h).mpr ⟨found, hf⟩
      have hsame := relabelled_ofFound hr h hplain hf hf' hdealt'
      rw [← hsame.required_eq, ← hsame.implied_eq] at hdvd
      exact ⟨found', hf', hdvd⟩
  · intro s s' hs hs'
    obtain ⟨found, hn⟩ := ofContraction_eq_ok_iff.mp hs
    obtain ⟨found', hn'⟩ := ofContraction_eq_ok_iff.mp hs'
    obtain ⟨rfl, -⟩ := (ofContraction_eq_ok_iff_dvd hn.pairs).mp hs
    obtain ⟨rfl, -⟩ := (ofContraction_eq_ok_iff_dvd hn'.pairs).mp hs'
    exact relabelled_ofFound hr h hplain hn.pairs hn'.pairs hdealt'

/-- The numbers of two occupied indices exchanged. -/
def exchangeNumbers (i j space id : Int) : Int :=
  if space = 1 ∧ id = i then j else if space = 1 ∧ id = j then i else id

theorem unevenContraction_plainOrigins (role : Role) : unevenContraction.PlainOrigins role := by
  intro slot s
  match slot, role with
  | 0, .creator => cases s <;> exact .inl (by decide +kernel)
  | 0, .annihilator => cases s <;> exact .inl (by decide +kernel)
  | n + 1, role => cases role <;> exact .inl fun x hx => absurd hx List.not_mem_nil

theorem uneven_renumbers : uneven.Renumbers (exchangeNumbers 1 3) where
  pos := by decide
  inj := by decide

theorem uneven_symmetrizedAlike :
    Contraction.ofRecord uneven = .ok unevenContraction ∧
      uneven.Renumbers (exchangeNumbers 1 3) ∧
      (∀ role, unevenContraction.PlainOrigins role) ∧
      ∃ c', Contraction.ofRecord (uneven.renumber (exchangeNumbers 1 3)) = .ok c' ∧
        unevenContraction.SymmetrizedAlike (fromZero (exchangeNumbers 1 3)) c' :=
  ⟨ofRecord_uneven, uneven_renumbers, unevenContraction_plainOrigins,
    exists_symmetrizedAlike ofRecord_uneven uneven_renumbers unevenContraction_plainOrigins⟩

/-- Five creators of one slot: the first and the last come from one slot of the product, the third
and the fourth from another, the second from a third. -/
def crowded : Record where
  id := 1
  result := ⟨"R", false, [⟨[.occupied, .occupied, .occupied, .occupied, .occupied],
    [.virtual, .virtual, .virtual]⟩]⟩
  factor := ⟨1, 1, 1⟩
  vertexCount := 3
  operatorCount := 3
  superVertices := [1, 2, 3]
  arcCount := 0
  externalArcCount := 0
  vertices := [⟨"T", false, [⟨[.occupied, .occupied], [.virtual, .virtual, .virtual]⟩]⟩,
    ⟨"T", false, [⟨[.occupied, .occupied], []⟩]⟩, ⟨"T", false, [⟨[.occupied], []⟩]⟩]
  arcs := []
  externalArcs := []
  vertexRows := [⟨1, 1, 1, true, 1, 1⟩, ⟨1, 1, 1, true, 1, 5⟩, ⟨1, 2, 2, true, 1, 1⟩,
    ⟨1, 2, 2, true, 1, 2⟩, ⟨1, 2, 2, true, 1, 3⟩, ⟨2, 1, 1, true, 1, 3⟩, ⟨2, 1, 1, true, 1, 4⟩,
    ⟨3, 1, 1, true, 1, 2⟩]
  resultRows := [⟨1, 1, 1, 1, 1⟩, ⟨1, 1, 1, 1, 2⟩, ⟨1, 1, 1, 1, 3⟩, ⟨1, 1, 1, 1, 4⟩,
    ⟨1, 1, 1, 1, 5⟩, ⟨1, 2, 2, 1, 1⟩, ⟨1, 2, 2, 1, 2⟩, ⟨1, 2, 2, 1, 3⟩]

/-- Merged in one order the groups require 144 symmetrizations of the 720 that are implied, and
in another order 432. -/
theorem not_symmetrizedAlike :
    ¬ ∀ (r : Record) (c : Contraction) (ρ : Int → Int → Int), Contraction.ofRecord r = .ok c →
      r.Renumbers ρ → ∃ c', Contraction.ofRecord (r.renumber ρ) = .ok c' ∧
        c.SymmetrizedAlike (fromZero ρ) c' := by
  intro h
  have hneeds : ((Contraction.ofRecord crowded).bind ofContraction).toOption.map (·.required) =
      some 144 := by decide +kernel
  have hfails : ((Contraction.ofRecord (crowded.renumber (exchangeNumbers 2 5))).bind
      ofContraction).toOption = none := by decide +kernel
  have hrenumbers : crowded.Renumbers (exchangeNumbers 2 5) := ⟨by decide, by decide⟩
  cases hr : Contraction.ofRecord crowded with
  | error e => simp [hr, Except.bind, Except.toOption] at hneeds
  | ok c =>
    obtain ⟨c', hr', halike⟩ := h _ c _ hr hrenumbers
    cases hs : ofContraction c with
    | error e => simp [hr, hs, Except.bind, Except.toOption] at hneeds
    | ok s =>
      obtain ⟨s', hs'⟩ := halike.exists_iff.mpr ⟨s, hs⟩
      simp [hr', hs', Except.bind, Except.toOption] at hfails

end Symmetrization
end TensorContraction
