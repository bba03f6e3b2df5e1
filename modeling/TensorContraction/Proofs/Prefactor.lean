import TensorContraction.Proofs.MaximalExchange
import TensorContraction.Proofs.Ratio

/-!
# The prefactor of a regular contraction

In most contractions the origins are regular: the external indices of one slot, role and space
come all from one slot of the product or all from different ones, and no more than two indices
of a slot and a role run over several spaces.  Then the groups are whole classes of indices,
and the ratio of what is implied to what is required is a product over the slots and roles of
the result: a string of indices that is one group contributes nothing, any other string the
number of its orders.

## Main definitions

* `Contraction.RegularOrigins` — regular contractions.
* `Contraction.exchangeClasses` — the classes of exchangeable indices.
* `Contraction.excess` — what a string of the result contributes to the prefactor.

## Main results

* `Symmetrization.exists_ofContraction_of_regular` — the symmetrization of a regular contraction.
-/

namespace TensorContraction

namespace Contraction

/-! ### Regular contractions -/

/-- Every external index has an origin, no slot has more than two indices of one role over
several spaces, and indices of one slot, role and space have one origin or different ones. -/
structure RegularOrigins (c : Contraction) : Prop where
  /-- Every external index comes from some slot of the product. -/
  exists_origin : ∀ x ∈ c.externalIndices, ∃ o, Origin.of? c.tensors x = some o
  /-- Indices of one slot and role that run over several spaces are two at most. -/
  length_le : ∀ slot role, ∀ x ∈ held c.externalIndices slot role,
    ∀ y ∈ held c.externalIndices slot role, x.space ≠ y.space →
      (held c.externalIndices slot role).length ≤ 2
  /-- Indices of one slot, role and space have all one origin or pairwise different ones. -/
  even : ∀ slot role s,
    (∀ x ∈ c.externals slot role s, ∀ y ∈ c.externals slot role s,
      Origin.of? c.tensors x = Origin.of? c.tensors y) ∨
    ((c.externals slot role s).map (Origin.of? c.tensors)).Nodup

/-- The slots of the result, each with every space. -/
def places (c : Contraction) : List (Nat × Space) :=
  (List.range c.result.groups.length).flatMap fun slot =>
    [(slot, .occupied), (slot, .virtual), (slot, .active)]

/-- A place whose indices of a role, at least two of them, have pairwise different origins. -/
def ExchangesAll (c : Contraction) (role : Role) (p : Nat × Space) : Prop :=
  2 ≤ (c.externals p.1 role p.2).length ∧
    ((c.externals p.1 role p.2).map (Origin.of? c.tensors)).Nodup

instance (c : Contraction) (role : Role) (p : Nat × Space) : Decidable (c.ExchangesAll role p) :=
  inferInstanceAs (Decidable (_ ∧ _))

/-- The indices of a role in each place that exchanges all of them, by number. -/
def exchangeClasses (c : Contraction) (role : Role) : List (List Index) :=
  (c.places.filter fun p => c.ExchangesAll role p).map fun p =>
    Ascending.sortOn Index.key (c.externals p.1 role p.2)

/-- What the indices of a slot and a role contribute to the prefactor. -/
def excess (c : Contraction) (slot : Nat) (role : Role) : Nat :=
  if (∀ x ∈ held c.externalIndices slot role, ∀ y ∈ held c.externalIndices slot role,
      x.space = y.space) ∧
    ((held c.externalIndices slot role).map (Origin.of? c.tensors)).Nodup
  then 1
  else (held c.externalIndices slot role).length.factorial

variable {c : Contraction} {role : Role} {slot : Nat} {s : Space}

theorem mem_places {p : Nat × Space} : p ∈ c.places ↔ p.1 < c.result.groups.length := by
  obtain ⟨slot, s⟩ := p
  simp only [places, List.mem_flatMap, List.mem_range]
  constructor
  · intro h
    obtain ⟨i, hi, hp⟩ := h
    obtain rfl : slot = i := by
      simp only [List.mem_cons, List.not_mem_nil, or_false, Prod.mk.injEq] at hp
      omega
    exact hi
  · intro h
    exact ⟨slot, h, by cases s <;> simp⟩

theorem nodup_places (c : Contraction) : c.places.Nodup := by
  rw [places, List.nodup_flatMap]
  refine ⟨fun slot _ => by simp, List.nodup_range.imp fun {i j} hij => ?_⟩
  simp [List.disjoint_left, hij]

theorem externals_subset_held {x : Index} (hx : x ∈ c.externals slot role s) :
    x ∈ held c.externalIndices slot role :=
  List.mem_of_mem_filter hx

namespace RegularOrigins

theorem plainOrigins (h : c.RegularOrigins) (role : Role) : c.PlainOrigins role := by
  refine EvenOrigins.plainOrigins fun slot s => ?_
  refine (h.even slot role s).imp_right fun hnodup x hx y hy hne hsame => hne ?_
  exact List.inj_on_of_nodup_map hnodup hx hy hsame

theorem exists_finds {r : Record} (hr : ofRecord r = .ok c) (h : c.RegularOrigins) :
    ∃ found, Symmetrization.Finds c found := by
  refine Symmetrization.exists_finds_iff.mpr fun g hg role => ?_
  obtain ⟨i, hi⟩ := List.mem_iff_getElem?.mp hg
  obtain ⟨signature, hcarries⟩ := exists_carries_of_ofRecord hr hi
  have hperm := hcarries.perm role
  refine ⟨fun x hx => h.exists_origin x (mem_held.mp (hperm.mem_iff.mp hx)).1, fun hmixed => ?_⟩
  obtain ⟨x, hx, y, hy, hne⟩ := Symmetrization.mixed_iff.mp hmixed
  rw [hperm.length_eq]
  exact h.length_le i role x (hperm.mem_iff.mp hx) y (hperm.mem_iff.mp hy) hne

end RegularOrigins

/-! ### Groups are whole classes -/

section Classes

variable {p : Nat × Space} {groups : List (List Index)} {g : List Index}

theorem ExchangesAll.nodup (hp : c.ExchangesAll role p) : (c.externals p.1 role p.2).Nodup :=
  hp.2.of_map _

theorem ExchangesAll.exists_mem (hp : c.ExchangesAll role p) :
    ∃ x, x ∈ c.externals p.1 role p.2 :=
  List.exists_mem_of_length_pos (Nat.lt_of_lt_of_le Nat.two_pos hp.1)

theorem ExchangesAll.origin_ne (hp : c.ExchangesAll role p) {x y : Index}
    (hx : x ∈ c.externals p.1 role p.2) (hy : y ∈ c.externals p.1 role p.2) (hxy : x ≠ y) :
    Origin.of? c.tensors x ≠ Origin.of? c.tensors y :=
  fun hsame => hxy (List.inj_on_of_nodup_map hp.2 hx hy hsame)

theorem ExchangesAll.maximalExchange (hp : c.ExchangesAll role p) :
    c.MaximalExchange role (c.externals p.1 role p.2).toFinset := by
  have hexchanges : ∀ x ∈ c.externals p.1 role p.2, ∀ y ∈ c.externals p.1 role p.2, x ≠ y →
      c.Exchanges role x y :=
    fun x hx y hy hxy => ⟨p.1, p.2, hx, hy, hp.origin_ne hx hy hxy⟩
  obtain ⟨x, hx, y, hy, hxy⟩ := exists_ne_of_nodup hp.nodup hp.1
  constructor
  case exchanges =>
    intro x hx y hy hxy
    exact hexchanges x (List.mem_toFinset.mp hx) y (List.mem_toFinset.mp hy) hxy
  case exists_exchanges =>
    exact ⟨x, List.mem_toFinset.mpr hx, y, List.mem_toFinset.mpr hy, hexchanges x hx y hy hxy⟩
  case maximal =>
    intro z hz
    by_cases hxz : x = z
    · exact hxz ▸ List.mem_toFinset.mpr hx
    · exact List.mem_toFinset.mpr ((hz x (List.mem_toFinset.mpr hx) hxz).mem_externals hx)

theorem mem_exchangeClasses :
    g ∈ c.exchangeClasses role ↔
      ∃ p, (p.1 < c.result.groups.length ∧ c.ExchangesAll role p) ∧
        Ascending.sortOn Index.key (c.externals p.1 role p.2) = g := by
  simp only [exchangeClasses, List.mem_map, List.mem_filter, decide_eq_true_eq, mem_places]

theorem nodup_exchangeClasses (c : Contraction) (role : Role) : (c.exchangeClasses role).Nodup := by
  refine ((nodup_places c).filter _).map_on fun p hp q _ heq => ?_
  have hp : c.ExchangesAll role p := of_decide_eq_true (List.mem_filter.mp hp).2
  -- a class has members, and they have one place
  obtain ⟨x, hx⟩ := hp.exists_mem
  have hxq : x ∈ c.externals q.1 role q.2 := by
    rwa [← Ascending.mem_sortOn Index.key, ← heq, Ascending.mem_sortOn]
  obtain ⟨hslot, hspace⟩ := eq_of_mem_externals hx hxq
  exact Prod.ext hslot hspace

/-- A class and a group are both listed by number, so their members decide. -/
theorem ExchangesAll.sortOn_eq (hp : c.ExchangesAll role p) (hg : c.AntisymmetrizedBy role groups)
    (hgroup : g ∈ groups) (hmem : ∀ x, x ∈ c.externals p.1 role p.2 ↔ x ∈ g) :
    Ascending.sortOn Index.key (c.externals p.1 role p.2) = g := by
  have hsorted : (Ascending.sortOn Index.key (c.externals p.1 role p.2)).Perm
      (c.externals p.1 role p.2) := Ascending.sortOn_perm _ _
  have hids : (Ascending.sortOn Index.key (c.externals p.1 role p.2)).Pairwise
      fun x y => x.id < y.id :=
    pairwise_id_lt (hsorted.nodup_iff.mpr hp.nodup) (Ascending.sortOn_pairwise _ _)
      fun x hx => hsorted.mem_iff.mp hx
  have hperm : (c.externals p.1 role p.2).Perm g :=
    (List.perm_ext_iff_of_nodup hp.nodup (hg.nodup hgroup)).mpr hmem
  refine (hsorted.trans hperm).eq_of_pairwise (fun a b _ _ hab hba => ?_) hids (hg.id_lt g hgroup)
  exact absurd hab (Nat.lt_asymm hba)

namespace RegularOrigins

/-- In a regular contraction two exchanged indices make their whole place exchanged. -/
theorem exchangesAll (h : c.RegularOrigins) {x y : Index} (hxy : c.Exchanges role x y)
    (hx : x ∈ c.externals slot role s) : c.ExchangesAll role (slot, s) := by
  have hy := hxy.mem_externals hx
  have hnodup : ((c.externals slot role s).map (Origin.of? c.tensors)).Nodup :=
    (h.even slot role s).resolve_left fun hequal => hxy.origin_ne (hequal x hx y hy)
  refine ⟨?_, hnodup⟩
  have hsub : [x, y] ⊆ c.externals slot role s := by
    rw [List.cons_subset, List.cons_subset]
    exact ⟨hx, hy, List.nil_subset _⟩
  have hpair : [x, y].Nodup := by simpa using hxy.ne
  exact (List.subperm_of_subset hpair hsub).length_le

/-- **The groups of a regular contraction are whole classes.** -/
theorem perm_exchangeClasses (h : c.RegularOrigins) (hdealt : c.ResultDealt)
    (hg : c.AntisymmetrizedBy role groups) : groups.Perm (c.exchangeClasses role) := by
  have hplain := h.plainOrigins role
  rw [List.perm_ext_iff_of_nodup hg.nodup_toFinset.of_map (nodup_exchangeClasses c role)]
  intro g
  rw [mem_exchangeClasses]
  constructor
  · intro hgroup
    obtain ⟨slot, s, hplace⟩ := hg.place g hgroup
    obtain ⟨x, hx, y, hy, hxy⟩ := hg.exists_exchanges hgroup
    have hp : c.ExchangesAll role (slot, s) := h.exchangesAll hxy (hplace x hx)
    obtain ⟨hxe, rfl, -, rfl⟩ := mem_externals.mp (hplace x hx)
    obtain ⟨result, hresult⟩ := hdealt.placed x hxe
    have hlt : x.vertex < c.result.groups.length :=
      (List.getElem?_eq_some_iff.mp (List.mem_zipIdx_iff_getElem?.mp hresult)).1
    refine ⟨(x.vertex, x.space), ⟨hlt, hp⟩, hp.sortOn_eq hg hgroup fun z =>
      ⟨fun hz => ?_, hplace z⟩⟩
    refine hg.mem_of_exchanges hplain hgroup fun w hw hwz => ?_
    exact ⟨x.vertex, x.space, hplace w hw, hz, hp.origin_ne (hplace w hw) hz hwz⟩
  · rintro ⟨p, ⟨-, hp⟩, rfl⟩
    obtain ⟨g', hg', hset⟩ :=
      List.mem_map.mp ((hg.mem_toFinset_iff hplain).mpr hp.maximalExchange)
    rw [hp.sortOn_eq hg hg' fun x => by rw [← List.mem_toFinset, ← hset, List.mem_toFinset]]
    exact hg'

end RegularOrigins

end Classes

/-! ### The prefactor -/

/-- Where all indices of a place are exchanged, they are all the slot has of their role. -/
theorem RegularOrigins.externals_eq_held (h : c.RegularOrigins)
    (hp : c.ExchangesAll role (slot, s)) :
    c.externals slot role s = held c.externalIndices slot role := by
  rw [externals, ofSpace, List.filter_eq_self]
  intro y hy
  by_contra hys
  obtain ⟨x, hx⟩ := hp.exists_mem
  have hxs : x.space = s := (mem_externals.mp hx).2.2.2
  have hle := h.length_le slot role x (externals_subset_held hx) y hy
    fun hspace => hys (by simp [← hspace, hxs])
  -- the index left out makes a third one
  have hlt : (c.externals slot role s).length < (held c.externalIndices slot role).length := by
    refine List.length_filter_lt_length_iff_exists.mpr ⟨y, hy, hys⟩
  have htwo : 2 ≤ (c.externals slot role s).length := hp.1
  omega

/-- What the groups within one slot require of a role. -/
def ordersWithin (c : Contraction) (slot : Nat) (role : Role) : Nat :=
  ([.occupied, .virtual, .active].map fun s =>
    if c.ExchangesAll role (slot, s) then (c.externals slot role s).length.factorial else 1).prod

/-- At most one space of a slot and a role is exchanged. -/
theorem RegularOrigins.ordersWithin_eq (h : c.RegularOrigins)
    (hp : c.ExchangesAll role (slot, s)) :
    c.ordersWithin slot role = (held c.externalIndices slot role).length.factorial := by
  have hone (s' : Space) (hs' : c.ExchangesAll role (slot, s')) : s' = s := by
    obtain ⟨x, hx⟩ := hp.exists_mem
    have hx' : x ∈ c.externals slot role s' := by
      rw [h.externals_eq_held hs', ← h.externals_eq_held hp]
      exact hx
    exact (eq_of_mem_externals hx' hx).2
  have hother (s' : Space) (hne : s' ≠ s) : ¬ c.ExchangesAll role (slot, s') :=
    fun hs' => hne (hone s' hs')
  rw [← h.externals_eq_held hp]
  cases s <;> simp [ordersWithin, hp, hother]

/-- Strings of a result are counted in two parts: orders within the groups, and the excess. -/
theorem RegularOrigins.factorial_length_held (h : c.RegularOrigins) (slot : Nat) (role : Role) :
    (held c.externalIndices slot role).length.factorial =
      c.ordersWithin slot role * c.excess slot role := by
  by_cases hex : ∃ s, c.ExchangesAll role (slot, s)
  · obtain ⟨s, hs⟩ := hex
    have hall := h.externals_eq_held hs
    have hspace : ∀ x ∈ held c.externalIndices slot role, x.space = s := fun x hx =>
      (mem_externals.mp (hall ▸ hx : x ∈ c.externals slot role s)).2.2.2
    rw [h.ordersWithin_eq hs, excess, if_pos, Nat.mul_one]
    refine ⟨fun x hx y hy => (hspace x hx).trans (hspace y hy).symm, ?_⟩
    rw [← hall]
    exact hs.2
  · have hnone : c.ordersWithin slot role = 1 := by
      simp [ordersWithin, not_exists.mp hex]
    rw [hnone, Nat.one_mul, excess]
    split
    · next hdone =>
      obtain ⟨hspace, hnodup⟩ := hdone
      -- two indices would be a class of their own
      refine Nat.factorial_eq_one.mpr (Nat.le_of_not_lt fun hlen => hex ?_)
      obtain ⟨x, hx⟩ := List.exists_mem_of_length_pos (Nat.zero_lt_of_lt hlen)
      have hall : c.externals slot role x.space = held c.externalIndices slot role := by
        rw [externals, ofSpace, List.filter_eq_self]
        exact fun y hy => beq_iff_eq.mpr (hspace y hy x hx)
      exact ⟨x.space, hall ▸ hlen, by rwa [hall]⟩
    · rfl

theorem orders_exchangeClasses (c : Contraction) (role : Role) :
    Symmetrization.orders (c.exchangeClasses role) =
      ((List.range c.result.groups.length).map fun slot => c.ordersWithin slot role).prod := by
  have hclasses (ps : List (Nat × Space)) :
      (((ps.filter fun p => c.ExchangesAll role p).map fun p =>
          Ascending.sortOn Index.key (c.externals p.1 role p.2)).map
            fun l => l.length.factorial).prod =
        (ps.map fun p => if c.ExchangesAll role p then (c.externals p.1 role p.2).length.factorial
          else 1).prod := by
    induction ps with
    | nil => rfl
    | cons p ps ih =>
      have hlen := (Ascending.sortOn_perm Index.key (c.externals p.1 role p.2)).length_eq
      by_cases hp : c.ExchangesAll role p
      · simp only [List.filter_cons, hp, decide_true, if_true, List.map_cons, List.prod_cons, ih,
          hlen]
      · simp only [List.filter_cons, hp, decide_false, Bool.false_eq_true, if_false, List.map_cons,
          List.prod_cons, ih, Nat.one_mul]
  rw [Symmetrization.orders_eq_prod, exchangeClasses, hclasses, places]
  induction List.range c.result.groups.length with
  | nil => rfl
  | cons slot slots ih =>
    rw [List.flatMap_cons, List.map_append, List.prod_append, ih]
    simp [ordersWithin]

theorem orders_result {r : Record} (hr : ofRecord r = .ok c) :
    Symmetrization.orders (c.result.groups.flatMap fun g => [g.creators, g.annihilators]) =
      ((List.range c.result.groups.length).map fun slot =>
        (held c.externalIndices slot .creator).length.factorial *
          (held c.externalIndices slot .annihilator).length.factorial).prod := by
  have hgroups : (c.result.groups.map fun g =>
        g.creators.length.factorial * g.annihilators.length.factorial) =
      (List.range c.result.groups.length).map fun slot =>
        (held c.externalIndices slot .creator).length.factorial *
          (held c.externalIndices slot .annihilator).length.factorial := by
    refine List.ext_getElem (by simp) fun i hi _ => ?_
    rw [List.length_map] at hi
    obtain ⟨signature, hcarries⟩ := exists_carries_of_ofRecord hr (List.getElem?_eq_getElem hi)
    have hlen (role : Role) := (hcarries.perm role).length_eq
    rw [List.getElem_map, List.getElem_map, List.getElem_range, ← hlen .creator,
      ← hlen .annihilator]
    rfl
  rw [← hgroups, Symmetrization.orders_eq_prod, List.flatMap, List.map_flatten,
    List.prod_flatten, List.map_map, List.map_map]
  simp [Function.comp_def]

end Contraction

namespace Symmetrization

variable {r : Record} {c : Contraction}

/-- **The symmetrization of a regular contraction.** -/
theorem exists_ofContraction_of_regular (hr : Contraction.ofRecord r = .ok c)
    (hc : c.RegularOrigins) :
    ∃ s, ofContraction c = .ok s ∧
      (∀ role, (s.groups.on role).Perm (c.exchangeClasses role)) ∧
      s.prefactor = ((List.range c.result.groups.length).map fun slot =>
        c.excess slot .creator * c.excess slot .annihilator).prod := by
  obtain ⟨found, hf⟩ := hc.exists_finds hr
  have hdealt := Contraction.resultDealt_of_ofRecord hr
  have hclasses (role : Role) :
      ((ofFound c found).groups.on role).Perm (c.exchangeClasses role) := by
    rw [ofFound_groups_on]
    exact hc.perm_exchangeClasses hdealt (hf.antisymmetrizedBy hdealt role)
  have hrequired : (ofFound c found).required =
      orders (c.exchangeClasses .creator) * orders (c.exchangeClasses .annihilator) := by
    rw [ofFound_required, orders_eq_of_perm (hclasses .creator),
      orders_eq_of_perm (hclasses .annihilator)]
  have hratio : (ofFound c found).implied = (ofFound c found).required *
      ((List.range c.result.groups.length).map fun slot =>
        c.excess slot .creator * c.excess slot .annihilator).prod := by
    rw [hrequired, ofFound_implied, Contraction.orders_result hr,
      Contraction.orders_exchangeClasses, Contraction.orders_exchangeClasses,
      ← List.prod_map_mul, ← List.prod_map_mul]
    refine congrArg List.prod (List.map_congr_left fun slot _ => ?_)
    rw [hc.factorial_length_held, hc.factorial_length_held, Nat.mul_mul_mul_comm]
  refine ⟨_, (ofContraction_eq_ok_iff_dvd hf).mpr ⟨rfl, Dvd.intro _ hratio.symm⟩, hclasses, ?_⟩
  have hpos : 0 < (ofFound c found).required := by
    rw [hrequired]
    exact Nat.mul_pos (orders_pos _) (orders_pos _)
  rw [prefactor, hratio, Nat.mul_div_cancel_left _ hpos]

/-- Two slots of the result: the creators of the first come from different slots of the product,
its annihilators from one, and the creators of the second run over two spaces. -/
def regular : Record where
  id := 1
  result := ⟨"R", false, [⟨[.occupied, .occupied], [.virtual, .virtual]⟩,
    ⟨[.occupied, .active], []⟩]⟩
  factor := ⟨1, 1, 1⟩
  vertexCount := 2
  operatorCount := 2
  superVertices := [1, 2]
  arcCount := 0
  externalArcCount := 0
  vertices := [⟨"A", false, [⟨[.occupied, .occupied, .active], [.virtual, .virtual]⟩]⟩,
    ⟨"B", false, [⟨[.occupied], []⟩]⟩]
  arcs := []
  externalArcs := []
  vertexRows := [⟨1, 1, 1, true, 1, 1⟩, ⟨1, 1, 1, true, 1, 3⟩, ⟨1, 1, 3, true, 1, 1⟩,
    ⟨1, 2, 2, true, 1, 1⟩, ⟨1, 2, 2, true, 1, 2⟩, ⟨2, 1, 1, true, 1, 2⟩]
  resultRows := [⟨1, 1, 1, 1, 1⟩, ⟨1, 1, 1, 1, 2⟩, ⟨1, 2, 2, 1, 1⟩, ⟨1, 2, 2, 1, 2⟩,
    ⟨2, 1, 1, 2, 3⟩, ⟨2, 1, 3, 2, 1⟩]

def regularContraction : Contraction where
  id := 0
  factor := 1
  result := ⟨"R", [⟨[⟨0, .occupied, 0, .creator⟩, ⟨1, .occupied, 0, .creator⟩],
      [⟨1, .virtual, 0, .annihilator⟩, ⟨0, .virtual, 0, .annihilator⟩]⟩,
    ⟨[⟨2, .occupied, 1, .creator⟩, ⟨0, .active, 1, .creator⟩], []⟩], false⟩
  tensors := [⟨"A", [⟨[⟨0, .occupied, 0, .creator⟩, ⟨2, .occupied, 0, .creator⟩,
      ⟨0, .active, 0, .creator⟩],
      [⟨1, .virtual, 0, .annihilator⟩, ⟨0, .virtual, 0, .annihilator⟩]⟩], false⟩,
    ⟨"B", [⟨[⟨1, .occupied, 1, .creator⟩], []⟩], false⟩]
  superVertices := [0, 1]
  arcs := []
  externalArcs := []
  vertexIndices := [⟨0, .occupied, 0, .creator⟩, ⟨2, .occupied, 0, .creator⟩,
    ⟨0, .active, 0, .creator⟩, ⟨0, .virtual, 0, .annihilator⟩, ⟨1, .virtual, 0, .annihilator⟩,
    ⟨1, .occupied, 1, .creator⟩]
  externalIndices := [⟨0, .occupied, 0, .creator⟩, ⟨1, .occupied, 0, .creator⟩,
    ⟨0, .virtual, 0, .annihilator⟩, ⟨1, .virtual, 0, .annihilator⟩, ⟨2, .occupied, 1, .creator⟩,
    ⟨0, .active, 1, .creator⟩]

theorem ofRecord_regular : Contraction.ofRecord regular = .ok regularContraction := by
  decide +kernel

theorem regularContraction_regularOrigins : regularContraction.RegularOrigins where
  exists_origin x hx := by
    have hsome : ∀ x ∈ regularContraction.externalIndices,
        (Origin.of? regularContraction.tensors x).isSome := by decide +kernel
    exact Option.isSome_iff_exists.mp (hsome x hx)
  length_le slot role x hx y hy _ := by
    match slot, role with
    | 0, .creator | 0, .annihilator | 1, .creator | 1, .annihilator => decide
    | n + 2, role => cases role <;> exact Nat.zero_le 2
  even slot role s := by
    match slot, role with
    | 0, .creator | 0, .annihilator | 1, .creator | 1, .annihilator =>
      cases s <;> decide +kernel
    | n + 2, role => exact .inr (by cases role <;> exact List.nodup_nil)

/-- The first slot has one group; its annihilators and the second slot leave a factor each. -/
theorem exists_ofContraction_regular :
    Contraction.ofRecord regular = .ok regularContraction ∧
      regularContraction.RegularOrigins ∧
      ∃ s, ofContraction regularContraction = .ok s ∧
        (s.groups.on .creator).Perm [[⟨0, .occupied, 0, .creator⟩, ⟨1, .occupied, 0, .creator⟩]] ∧
        (s.groups.on .annihilator).Perm [] ∧ s.prefactor = 4 := by
  obtain ⟨s, hs, hgroups, hprefactor⟩ :=
    exists_ofContraction_of_regular ofRecord_regular regularContraction_regularOrigins
  have hcreators : regularContraction.exchangeClasses .creator =
      [[⟨0, .occupied, 0, .creator⟩, ⟨1, .occupied, 0, .creator⟩]] := by decide +kernel
  have hannihilators : regularContraction.exchangeClasses .annihilator = [] := by decide +kernel
  refine ⟨ofRecord_regular, regularContraction_regularOrigins, s, hs, ?_, ?_, ?_⟩
  · exact hcreators ▸ hgroups .creator
  · exact hannihilators ▸ hgroups .annihilator
  · rw [hprefactor]
    decide +kernel

end Symmetrization
end TensorContraction
