import Mathlib.Data.List.Induction
import TensorContraction.Proofs.Distribution
import TensorContraction.Proofs.Table
import TensorContraction.Term.Sequant

/-!
# Terms under their results

Each distinct result has one header, and all its terms stand under it, those of the first result
first.  What counts is the result and not its text: results that differ in a vertex or in whether
they are transposed look the same and still have a header each.

Terms are put under their results one by one.  The result of a term can be looked for among the
headers, or in a table with the position of each header.  The table and the list of headers grow
together and always agree, so both ways group the terms alike.

## Main definitions

* `Sequant.results`, `Sequant.termsOf` — the distinct results, and the terms of one.
* `Sequant.Ledger` — headers with a table of their positions.

## Main results

* `nodup_eraseDups`, `pairwise_idxOf_eraseDups` — distinct entries by first occurrence.
* `Sequant.gather_eq` — the plain grouping.
* `Sequant.Ledger.Agrees.add` — table and headers agree after each term.
* `Sequant.document_byResult` — the text of some terms.
-/

namespace TensorContraction

/-! ### Distinct entries by first occurrence -/

section Distinct

variable {α : Type} [DecidableEq α]

/-- An entry at the end is kept if it is new. -/
theorem eraseDups_concat (xs : List α) (x : α) :
    (xs ++ [x]).eraseDups = if x ∈ xs then xs.eraseDups else xs.eraseDups ++ [x] := by
  rw [List.eraseDups_append, List.removeAll, List.filter_singleton]
  by_cases hx : x ∈ xs
  · simp [hx]
  · simp [hx, List.eraseDups_cons]

theorem nodup_eraseDups (xs : List α) : xs.eraseDups.Nodup := by
  induction xs using List.reverseRecOn with
  | nil => exact List.nodup_nil
  | append_singleton xs x ih =>
    rw [eraseDups_concat]
    split
    · exact ih
    · next hx =>
      rw [(List.perm_append_singleton x _).nodup_iff, List.nodup_cons, List.mem_eraseDups]
      exact ⟨hx, ih⟩

theorem pairwise_idxOf_eraseDups (xs : List α) :
    xs.eraseDups.Pairwise fun x y => xs.idxOf x < xs.idxOf y := by
  induction xs using List.reverseRecOn with
  | nil => exact List.Pairwise.nil
  | append_singleton xs x ih =>
    have hold : xs.eraseDups.Pairwise fun y z => (xs ++ [x]).idxOf y < (xs ++ [x]).idxOf z := by
      refine ih.imp_of_mem fun hy hz hlt => ?_
      rwa [List.idxOf_append_of_mem (List.mem_eraseDups.mp hy),
        List.idxOf_append_of_mem (List.mem_eraseDups.mp hz)]
    rw [eraseDups_concat]
    split
    · exact hold
    · next hx =>
      refine List.pairwise_append.mpr ⟨hold, List.pairwise_singleton _ _, fun y hy z hz => ?_⟩
      obtain rfl := List.mem_singleton.mp hz
      have hy := List.mem_eraseDups.mp hy
      rw [List.idxOf_append_of_mem hy, List.idxOf_append_of_notMem hx]
      exact Nat.lt_of_lt_of_le (List.idxOf_lt_length_of_mem hy) (Nat.le_add_right _ _)

end Distinct

namespace Sequant

variable {terms : List Term} {t : Term} {groups : List (Tensor × List Term)}

/-! ### The plain grouping -/

/-- The distinct results of some terms, in the order in which they first occur. -/
def results (terms : List Term) : List Tensor := (terms.map (·.contraction.result)).eraseDups

/-- The terms of a result, in order. -/
def termsOf (result : Tensor) (terms : List Term) : List Term :=
  terms.filter (·.contraction.result == result)

theorem mem_results_iff {result : Tensor} :
    result ∈ results terms ↔ ∃ t ∈ terms, t.contraction.result = result := by
  rw [results, List.mem_eraseDups, List.mem_map]

theorem nodup_results (terms : List Term) : (results terms).Nodup := nodup_eraseDups _

theorem termsOf_eq_nil {result : Tensor} (h : result ∉ results terms) :
    termsOf result terms = [] := by
  rw [mem_results_iff] at h
  refine List.filter_eq_nil_iff.mpr fun t ht heq => h ⟨t, ht, ?_⟩
  exact beq_iff_eq.mp heq

theorem termsOf_concat (result : Tensor) (terms : List Term) (t : Term) :
    termsOf result (terms ++ [t]) =
      if t.contraction.result = result then termsOf result terms ++ [t]
      else termsOf result terms := by
  rw [termsOf, List.filter_append, List.filter_singleton, termsOf]
  by_cases h : t.contraction.result = result
  · simp [h]
  · simp [h, beq_false_of_ne h]

/-- A term joins the others of its result, and other results are left alone. -/
theorem addTerm_map (t : Term) (terms : List Term) {rs : List Tensor} (hrs : rs.Nodup) :
    addTerm t (rs.map fun r => (r, termsOf r terms)) =
      (rs.map fun r => (r, termsOf r (terms ++ [t]))) ++
        if t.contraction.result ∈ rs then [] else [(t.contraction.result, [t])] := by
  induction rs with
  | nil => simp [addTerm]
  | cons r rs ih =>
    obtain ⟨hr, hrs⟩ := List.nodup_cons.mp hrs
    rw [List.map_cons, List.map_cons, addTerm, termsOf_concat]
    by_cases h : r = t.contraction.result
    · subst h
      have hothers : (rs.map fun r => (r, termsOf r terms)) =
          rs.map fun r => (r, termsOf r (terms ++ [t])) := by
        refine List.map_congr_left fun s hs => ?_
        rw [termsOf_concat, if_neg]
        rintro rfl
        exact hr hs
      simp [hothers]
    · rw [if_neg h, if_neg fun heq => h heq.symm, ih hrs]
      simp [List.mem_cons, Ne.symm h]

/-- **Terms are gathered as the plain grouping has them.** -/
theorem gather_eq (terms : List Term) :
    gather terms = (results terms).map fun r => (r, termsOf r terms) := by
  induction terms using List.reverseRecOn with
  | nil => rfl
  | append_singleton terms t ih =>
    have hstep : gather (terms ++ [t]) = addTerm t (gather terms) := List.foldl_concat _ _ _ _
    have hresults : results (terms ++ [t]) = if t.contraction.result ∈ results terms
        then results terms else results terms ++ [t.contraction.result] := by
      simp only [results, List.map_append, List.map_singleton, eraseDups_concat,
        List.mem_eraseDups]
    rw [hstep, ih, addTerm_map t terms (nodup_results terms), hresults]
    split
    · rw [List.append_nil]
    · next hnew =>
      rw [List.map_append, List.map_singleton, termsOf_concat, if_pos rfl, termsOf_eq_nil hnew,
        List.nil_append]

/-! ### Headers with a table of their positions -/

/-- Terms under the headers of their results, and the position of each header. -/
structure Ledger where
  /-- The positions of the results that have a header. -/
  positions : Table Tensor Nat
  /-- The headers, each with its terms. -/
  groups : List (Tensor × List Term)

namespace Ledger

/-- The ledger with a header for a result, which is a new one at the end if it has none, and the
position of the header. -/
def locate (l : Ledger) (result : Tensor) : Ledger × Nat :=
  match l.positions result with
  | some i => (l, i)
  | none => (⟨l.positions.enter result l.groups.length, l.groups ++ [(result, [])]⟩,
      l.groups.length)

/-- The ledger with a term at the end of those that stand under the header of its result. -/
def add (l : Ledger) (t : Term) : Ledger :=
  let (opened, i) := l.locate t.contraction.result
  { opened with groups := opened.groups.modify i fun (result, members) => (result, members ++ [t]) }

/-- The ledger of some terms. -/
def ofTerms (terms : List Term) : Ledger := terms.foldl add ⟨.empty, []⟩

/-- The text of a ledger. -/
def document (l : Ledger) : String :=
  String.join (l.groups.map fun (result, members) => equation result members)

/-- The table has the position of the first header of each result. -/
def Agrees (l : Ledger) : Prop :=
  ∀ result, l.positions result = (l.groups.map Prod.fst).findIdx? (· == result)

theorem map_fst_modify (groups : List (Tensor × List Term)) (i : Nat) (t : Term) :
    (groups.modify i fun (result, members) => (result, members ++ [t])).map Prod.fst =
      groups.map Prod.fst := by
  induction groups generalizing i with
  | nil => simp
  | cons g groups ih => cases i <;> simp [ih]

/-- A term is added at the position of its result, or under a new header. -/
theorem addTerm_eq (t : Term) (groups : List (Tensor × List Term)) :
    addTerm t groups =
      match (groups.map Prod.fst).findIdx? (· == t.contraction.result) with
      | some i => groups.modify i fun (result, members) => (result, members ++ [t])
      | none => groups ++ [(t.contraction.result, [t])] := by
  induction groups with
  | nil => rfl
  | cons g groups ih =>
    obtain ⟨r, members⟩ := g
    rw [addTerm, ih, List.map_cons, List.findIdx?_cons]
    by_cases h : r = t.contraction.result
    · simp [h]
    · rw [if_neg h, if_neg (by simpa using h)]
      cases (groups.map Prod.fst).findIdx? (· == t.contraction.result) <;> rfl

namespace Agrees

variable {l : Ledger}

theorem groups_add (h : l.Agrees) (t : Term) : (l.add t).groups = addTerm t l.groups := by
  rw [add, locate, addTerm_eq, ← h]
  cases l.positions t.contraction.result with
  | some i => rfl
  | none =>
    show (l.groups ++ [_]).modify l.groups.length _ = _
    rw [List.modify_eq_take_drop]
    simp

/-- **Table and headers agree after each term.** -/
theorem add (h : l.Agrees) (t : Term) : (l.add t).Agrees := by
  intro result
  rw [Ledger.add, locate]
  cases hposition : l.positions t.contraction.result with
  | some i =>
    show l.positions result = _
    rw [h, map_fst_modify]
  | none =>
    -- a new header stands behind all others
    show (l.positions.enter _ _) result = _
    rw [map_fst_modify, List.map_append, List.map_singleton, List.findIdx?_append, ← h,
      Table.enter_apply, List.findIdx?_singleton, List.length_map]
    by_cases hresult : result = t.contraction.result
    · simp [hresult]
    · simp [hresult, Ne.symm hresult]

theorem groups_foldl (h : l.Agrees) (terms : List Term) :
    (terms.foldl Ledger.add l).groups =
      terms.foldl (fun groups t => addTerm t groups) l.groups := by
  induction terms generalizing l with
  | nil => rfl
  | cons t terms ih => rw [List.foldl_cons, List.foldl_cons, ih (h.add t), h.groups_add]

end Agrees

/-- **A table of positions changes nothing**: terms stand under the same headers without it. -/
theorem groups_ofTerms (terms : List Term) : (ofTerms terms).groups = gather terms :=
  Agrees.groups_foldl (fun _ => rfl) terms

end Ledger

/-! ### Texts -/

/-- Each term stands under the header of its own result, once. -/
theorem flatMap_termsOf_perm (terms : List Term) :
    ((results terms).flatMap fun r => (termsOf r terms).map fun t => (r, t)).Perm
      (terms.map fun t => (t.contraction.result, t)) := by
  have hown (r : Tensor) : ((termsOf r terms).map fun t => (r, t)) =
      (termsOf r terms).map fun t => (t.contraction.result, t) := by
    refine List.map_congr_left fun t ht => ?_
    rw [beq_iff_eq.mp (List.mem_filter.mp ht).2]
  have hall : terms.filter (fun t => t.contraction.result ∈ results terms) = terms :=
    List.filter_eq_self.mpr fun t ht => decide_eq_true (mem_results_iff.mpr ⟨t, ht, rfl⟩)
  have hperm : ((results terms).flatMap fun r => termsOf r terms).Perm terms := by
    conv_rhs => rw [← hall]
    exact flatMap_filter_perm (fun t : Term => t.contraction.result) (nodup_results terms) terms
  simp only [hown]
  rw [← List.map_flatMap]
  exact hperm.map _

/-- **Terms are written under their results.**  The text has one header for each distinct result,
in the order in which the results first occur, and under each the lines of exactly the terms of that
result, in their order.  So each term is written once, under the header of its own result. -/
theorem document_byResult (terms : List Term) :
    document terms = String.join ((results terms).map fun r =>
      tensor r ++ " =\n" ++ String.join ((termsOf r terms).map line)) ∧
    (Ledger.ofTerms terms).document = document terms ∧
    (results terms).Nodup ∧
    (∀ r, r ∈ results terms ↔ ∃ t ∈ terms, t.contraction.result = r) ∧
    (results terms).Pairwise (fun r s => (terms.map (·.contraction.result)).idxOf r <
      (terms.map (·.contraction.result)).idxOf s) ∧
    ((results terms).flatMap fun r => (termsOf r terms).map fun t => (r, t)).Perm
      (terms.map fun t => (t.contraction.result, t)) := by
  refine ⟨?_, ?_, nodup_results terms, fun _ => mem_results_iff, pairwise_idxOf_eraseDups _,
    flatMap_termsOf_perm terms⟩
  · rw [document, gather_eq, List.map_map]
    rfl
  · rw [Ledger.document, Ledger.groups_ofTerms, document]

/-- Results that look alike but differ in whether they are transposed have a header each. -/
example :
    let term (transposed : Bool) (factor : Rat) : Term :=
      ⟨{ (default : Contraction) with factor := factor, result := ⟨"R", [], transposed⟩ },
        ⟨⟨[], []⟩, 1, 1⟩⟩
    document [term false 1, term true 2, term false (-1)] =
      "R\x7b;\x7d =\n  +\n  -\nR\x7b;\x7d =\n  + 2\n" := by
  decide +kernel

end Sequant
end TensorContraction
