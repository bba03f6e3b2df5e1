import TensorContraction.Proofs.Appearance
import TensorContraction.Proofs.Canonical
import TensorContraction.Proofs.OriginPattern

/-!
# Transposed operators

A record may declare an operator as the transpose of another, and then exchanges the two
lists of each slot.  Canonicalization reads the lists only as the operator shows them, that
is, after the exchange, so that an operator may as well be written untransposed with its
lists exchanged.  Such a record is rejected for the same rule, or it yields the same
contraction but for the flags, which neither a line of TeX nor an antisymmetrizer shows.

Everything follows from the spelling of a record in which no operator is transposed:
records with one such spelling cannot be told apart.

## Main definitions

* `Operator.shown`, `Record.shown` — what operators show, written without transposition.
* `Contraction.withoutFlags` — a contraction that has forgotten what was transposed.
* `Operator.exchange`, `Record.exchange` — operators with flag and lists exchanged.

## Main results

* `Contraction.ofRecord_shown` — a record without transposition yields the contraction
  without its flags.
* `Contraction.ofRecord_exchange` — exchanging flag and lists of any operators.
-/

namespace TensorContraction

/-! ### What operators show -/

/-- What an operator shows, as an operator that is not transposed. -/
def Operator.shown (o : Operator) : Operator := ⟨o.name, false, o.signatures⟩

/-- A record in which each operator is written as it shows itself. -/
def Record.shown (r : Record) : Record :=
  { r with result := r.result.shown, vertices := r.vertices.map Operator.shown }

theorem Operator.signatures_shown (o : Operator) : o.shown.signatures = o.signatures :=
  List.map_id _

/-- A vertex of an operator that is not transposed. -/
def Vertex.withoutFlag (v : Vertex) : Vertex := { v with transposed := false }

/-- A tensor that has forgotten whether its operator was transposed. -/
def Tensor.withoutFlag (t : Tensor) : Tensor := { t with transposed := false }

/-- A contraction that has forgotten which operators were transposed. -/
def Contraction.withoutFlags (c : Contraction) : Contraction :=
  { c with result := c.result.withoutFlag, tensors := c.tensors.map Tensor.withoutFlag }

/-! ### Vertices and tensors -/

namespace Vertex

theorem ofOperator_shown (position superVertex : Nat) (o : Operator) :
    ofOperator position superVertex o.shown = withoutFlag <$> ofOperator position superVertex o := by
  obtain ⟨name, transposed, slots⟩ := o
  rcases slots with _ | ⟨slot, _ | ⟨slot', slots⟩⟩
  · rfl
  · rfl
  · simp [ofOperator, Operator.shown, Operator.signatures]

theorem mapM_ofOperator_shown (superVertices : List Nat) (os : List Operator) :
    ((superVertices.zip (os.map Operator.shown)).zipIdx.mapM fun ((s, o), i) => ofOperator i s o) =
      List.map withoutFlag <$>
        (superVertices.zip os).zipIdx.mapM fun ((s, o), i) => ofOperator i s o := by
  rw [List.zip_map_right, List.zipIdx_map, List.mapM_map]
  exact Check.mapM_eq_map_mapM (fun _ => ofOperator_shown _ _ _) _

end Vertex

namespace SuperVertex

/-- Vertices are joined in the same way without their flags, or fail to be. -/
theorem tensor_map_withoutFlag (pool : List Index) (s : SuperVertex) :
    (s.map Vertex.withoutFlag).tensor pool = Tensor.withoutFlag <$> s.tensor pool := by
  have hother : (s.map Vertex.withoutFlag).others.find?
        (·.name != (s.map Vertex.withoutFlag).first.name) =
      (s.others.find? (·.name != s.first.name)).map Vertex.withoutFlag := List.find?_map
  have hgroups : (s.map Vertex.withoutFlag).members.mapM
        (fun v => Group.ofIndices v.position v.signature pool) =
      s.members.mapM fun v => Group.ofIndices v.position v.signature pool :=
    List.mapM_map (l := s.members) (f := Vertex.withoutFlag)
  unfold tensor
  rw [hother]
  cases s.others.find? (·.name != s.first.name) with
  | some other => rfl
  | none =>
    simp only [hgroups, Option.map_none, map_bind]
    rfl

theorem mapM_tensor_withoutFlag (pool : List Index) (vs : List Vertex) :
    (ofVertices (vs.map Vertex.withoutFlag)).mapM (tensor pool) =
      List.map Tensor.withoutFlag <$> (ofVertices vs).mapM (tensor pool) := by
  rw [ofVertices_map (f := Vertex.withoutFlag) fun _ => rfl, List.mapM_map]
  exact Check.mapM_eq_map_mapM (tensor_map_withoutFlag pool) _

end SuperVertex

/-! ### Contractions -/

namespace Contraction

theorem build_shown (r : Record) : build r.shown = withoutFlags <$> build r := by
  have hslots : r.shown.result.slots.map (·.seen r.shown.result.transposed) =
      r.result.slots.map (·.seen r.result.transposed) := r.result.signatures_shown
  have hcount (vs : List Vertex) : (SuperVertex.ofVertices (vs.map Vertex.withoutFlag)).length =
      (SuperVertex.ofVertices vs).length := by
    rw [SuperVertex.ofVertices_map (f := Vertex.withoutFlag) fun _ => rfl, List.length_map]
  unfold build
  simp only [hslots, map_bind, map_pure]
  -- the steps differ in the vertices, and from there on in the tensors
  simp only [Record.shown, List.length_map, Vertex.mapM_ofOperator_shown, bind_map_left, hcount,
    SuperVertex.mapM_tensor_withoutFlag, List.map_map]
  rfl

/-- **A record without transposition yields the contraction without its flags.** -/
theorem ofRecord_shown (r : Record) : ofRecord r.shown = withoutFlags <$> ofRecord r := by
  rw [ofRecord, build_shown, ofRecord]
  cases build r with
  | error v => rfl
  | ok c => rfl

end Contraction

/-! ### What does not show flags -/

theorem Contraction.withoutFlags_looksLike (c : Contraction) : c.withoutFlags.LooksLike c where
  factor_eq := rfl
  result := ⟨rfl, rfl, rfl⟩
  tensors := Tensor.forall₂_looksLike_map (f := Tensor.withoutFlag) (fun _ => ⟨rfl, rfl, rfl⟩) c.tensors

theorem Origin.table_withoutFlag (tensors : List Tensor) :
    table (tensors.map Tensor.withoutFlag) = table tensors := by
  rw [table, List.zipIdx_map, List.flatMap_map]
  rfl

/-- Antisymmetrizers look at tensors only for the origins of indices. -/
theorem Symmetrization.ofContraction_withoutFlags (c : Contraction) :
    ofContraction c.withoutFlags = ofContraction c :=
  ofContraction_congr rfl rfl (.of_table_eq (Origin.table_withoutFlag c.tensors) _)

/-! ### Exchanging flag and lists -/

/-- An operator with its flag flipped and the two lists of each slot exchanged. -/
def Operator.exchange (o : Operator) : Operator :=
  ⟨o.name, !o.transposed, o.slots.map Ladder.swap⟩

/-- A record with flag and lists of some vertices exchanged, and possibly of the result. -/
def Record.exchange (chosen : Nat → Bool) (result : Bool) (r : Record) : Record :=
  { r with
    result := if result then r.result.exchange else r.result
    vertices := r.vertices.mapIdx fun i o => if chosen i then o.exchange else o }

theorem Operator.shown_exchange (o : Operator) : o.exchange.shown = o.shown := by
  obtain ⟨name, transposed, slots⟩ := o
  have hslots : (slots.map Ladder.swap).map (·.seen !transposed) =
      slots.map (·.seen transposed) := by
    rw [List.map_map]
    cases transposed with
    | false => rfl
    | true => rfl
  simp only [exchange, shown, signatures, hslots]

theorem Record.shown_exchange (chosen : Nat → Bool) (result : Bool) (r : Record) :
    (r.exchange chosen result).shown = r.shown := by
  have hone (b : Bool) (o : Operator) : (if b then o.exchange else o).shown = o.shown := by
    cases b with
    | false => rfl
    | true => exact o.shown_exchange
  have hvertices : (r.vertices.mapIdx fun i o => if chosen i then o.exchange else o).map
      Operator.shown = r.vertices.map Operator.shown := by
    rw [List.mapIdx_eq_zipIdx_map, List.map_map]
    conv_rhs => rw [← List.zipIdx_map_fst 0 r.vertices, List.map_map]
    exact List.map_congr_left fun p _ => hone (chosen p.2) p.1
  simp only [shown, exchange, hone, hvertices]

/-- **Transposing is exchanging the lists.**  If some operators of a record have their flag
flipped and their lists exchanged, canonicalization fails in the same way or returns the
same contraction but for the flags.  The line of TeX and the antisymmetrizers are the same,
or fail to be found in the same way. -/
theorem Contraction.ofRecord_exchange (chosen : Nat → Bool) (result : Bool) (r : Record) :
    withoutFlags <$> ofRecord (r.exchange chosen result) = withoutFlags <$> ofRecord r ∧
      Tex.line <$> ofRecord (r.exchange chosen result) = Tex.line <$> ofRecord r ∧
      ofRecord (r.exchange chosen result) >>= Symmetrization.ofContraction =
        ofRecord r >>= Symmetrization.ofContraction := by
  have h : withoutFlags <$> ofRecord (r.exchange chosen result) = withoutFlags <$> ofRecord r := by
    rw [← ofRecord_shown, Record.shown_exchange, ofRecord_shown]
  refine ⟨h, ?_, ?_⟩
  · have hline : Tex.line = Tex.line ∘ withoutFlags := by
      funext c
      exact c.withoutFlags_looksLike.line_eq.symm
    rw [hline, comp_map, h, ← comp_map]
  · have hfound : Symmetrization.ofContraction =
        fun c => Symmetrization.ofContraction c.withoutFlags := by
      funext c
      exact (Symmetrization.ofContraction_withoutFlags c).symm
    rw [hfound, ← bind_map_left, h, bind_map_left]

end TensorContraction
