import TensorContraction.Proofs.Shortage

/-!
# Other ways to fill the places

Filling the places takes each index out of a pool.  What is left can be kept in two other ways.
The indices can stay in the list they came in, where a flag tells which of them have been
placed.  Or the list itself is rearranged: the index for a place moves up to it, those between
shift behind it, and what is left stands behind the places that have been filled.  Either way
the same indices are left in the same order, so the arrangement is the same, and so is the place
where filling stops.

## Main definitions

* `unplaced`, `place` — arranges indices that stay where they are.
* `moveTo`, `arrangeInPlace` — arranges indices by moving them within their list.

## Main results

* `arrange_eq_place` — the indices whose flag is off are the pool.
* `settle_append` — the list behind the filled places is the pool.
* `arrange_iff_arrangeInPlace` — the rearranged list is the arrangement, and there is nothing to
  move exactly where arranging stops.
-/

namespace TensorContraction

variable {pool filled : List Index} {spaces : List Space} {x : Index}

/-! ### Flags -/

/-- Whether an index is of a space and its flag is off. -/
def isFree (s : Space) (e : Index × Bool) : Bool := e.1.space == s && !e.2

/-- The indices whose flag is off. -/
def unplaced (indices : List Index) (flags : List Bool) : List Index :=
  ((indices.zip flags).filter (!·.2)).map (·.1)

/-- Fills the places from a position on with indices that stay where they are. -/
def placeFrom (indices : List Index) (position : Nat) :
    List Space → List Bool → Except ArrangeError (List Index)
  | [], _ => .ok []
  | s :: spaces, flags =>
    match (indices.zip flags).zipIdx.find? (isFree s ·.1) with
    | none => .error (.missingSpace position s)
    | some ((x, _), i) => (placeFrom indices (position + 1) spaces (flags.set i true)).map (x :: ·)

/-- Arranges all indices, of which none has been placed at first. -/
def place (indices : List Index) (spaces : List Space) : Except ArrangeError (List Index) :=
  if indices.length = spaces.length then
    placeFrom indices 0 spaces (List.replicate indices.length false)
  else .error (.lengthMismatch indices.length spaces.length)

theorem unplaced_replicate (indices : List Index) :
    unplaced indices (List.replicate indices.length false) = indices := by
  induction indices with
  | nil => rfl
  | cons x indices ih => exact congrArg (x :: ·) ih

theorem find?_unplaced (s : Space) (indices : List Index) (flags : List Bool) :
    (unplaced indices flags).find? (·.space == s) =
      ((indices.zip flags).find? (isFree s)).map (·.1) := by
  rw [unplaced, List.find?_map, List.find?_filter]
  congr 2
  funext e
  by_cases hs : e.1.space = s <;> simp [isFree, hs]

theorem eraseP_unplaced (s : Space) (indices : List Index) (flags : List Bool) :
    (unplaced indices flags).eraseP (·.space == s) =
      (((indices.zip flags).eraseP (isFree s)).filter (!·.2)).map (·.1) := by
  rw [unplaced, List.eraseP_map, List.eraseP_filter]
  rfl

/-- An index whose flag is put on is not left any more. -/
theorem unplaced_set (indices : List Index) (flags : List Bool) (i : Nat) :
    unplaced indices (flags.set i true) =
      (((indices.zip flags).eraseIdx i).filter (!·.2)).map (·.1) := by
  rw [unplaced]
  congr 1
  induction indices generalizing flags i with
  | nil => simp
  | cons x indices ih =>
    cases flags with
    | nil => simp
    | cons used flags =>
      cases i with
      | zero => simp
      | succ i => simp [List.filter_cons, ih]

theorem placeFrom_eq_fillFrom (indices : List Index) (position : Nat) (spaces : List Space)
    (flags : List Bool) :
    placeFrom indices position spaces flags =
      fillFrom position spaces (unplaced indices flags) := by
  induction spaces generalizing position flags with
  | nil => rfl
  | cons s spaces ih =>
    have hentry : (indices.zip flags).find? (isFree s) =
        ((indices.zip flags).zipIdx.find? (isFree s ·.1)).map (·.1) := by
      conv_lhs => rw [← List.zipIdx_map_fst 0 (indices.zip flags), List.find?_map]
      rfl
    have hposition : (indices.zip flags).findIdx? (isFree s) =
        ((indices.zip flags).zipIdx.find? (isFree s ·.1)).map (·.2) :=
      List.findIdx?_eq_fst_find?_zipIdx
    rw [placeFrom, fillFrom, find?_unplaced, hentry]
    cases hfree : (indices.zip flags).zipIdx.find? (isFree s ·.1) with
    | none => rfl
    | some e =>
      obtain ⟨⟨x, used⟩, i⟩ := e
      rw [hfree] at hposition
      have hleft : unplaced indices (flags.set i true) =
          (unplaced indices flags).eraseP (·.space == s) := by
        rw [unplaced_set, eraseP_unplaced, List.eraseP_eq_eraseIdx, hposition]
        rfl
      show (placeFrom _ _ _ _).map _ = (fillFrom _ _ _).map _
      rw [ih, hleft]

/-- **Arranging is placing with flags.** -/
theorem arrange_eq_place (indices : List Index) (spaces : List Space) :
    arrange indices spaces = place indices spaces := by
  rw [arrange, place, placeFrom_eq_fillFrom, unplaced_replicate]

/-! ### Moving within the list -/

/-- The list with the entry at one position taken out and put in at another. -/
def moveTo (xs : List Index) (source target : Nat) : List Index :=
  match xs[source]? with
  | none => xs
  | some x => (xs.eraseIdx source).insertIdx target x

/-- Puts an index of a space at a position: the one that stands there if it is of that space,
and else the first of those behind it, if there is one. -/
def settle (s : Space) (position : Nat) (xs : List Index) : Option (List Index) :=
  if xs[position]?.any (·.space == s) then some xs
  else ((xs.drop (position + 1)).findIdx? (·.space == s)).map fun i =>
    moveTo xs (position + 1 + i) position

/-- Settles the positions from one on, and stops at the first where that cannot be done. -/
def arrangeInPlaceFrom (position : Nat) : List Space → List Index → Except Nat (List Index)
  | [], xs => .ok xs
  | s :: spaces, xs =>
    match settle s position xs with
    | none => .error position
    | some ys => arrangeInPlaceFrom (position + 1) spaces ys

/-- Rearranges a list from its first position on. -/
def arrangeInPlace (indices : List Index) (spaces : List Space) : Except Nat (List Index) :=
  arrangeInPlaceFrom 0 spaces indices

theorem insertIdx_append (filled rest : List Index) (x : Index) :
    (filled ++ rest).insertIdx filled.length x = filled ++ x :: rest := by
  induction filled with
  | nil => rfl
  | cons y filled ih => simp [List.insertIdx_succ_cons, ih]

/-- An entry of the back part moves to the front of that part. -/
theorem moveTo_append {i : Nat} (hx : pool[i]? = some x) :
    moveTo (filled ++ pool) (filled.length + i) filled.length =
      filled ++ x :: pool.eraseIdx i := by
  have hget : (filled ++ pool)[filled.length + i]? = some x := by
    rw [List.getElem?_append_right (Nat.le_add_right _ _), Nat.add_sub_cancel_left, hx]
  have herase : (filled ++ pool).eraseIdx (filled.length + i) = filled ++ pool.eraseIdx i := by
    rw [List.eraseIdx_append_of_length_le (Nat.le_add_right _ _), Nat.add_sub_cancel_left]
  rw [moveTo, hget]
  show ((filled ++ pool).eraseIdx _).insertIdx _ x = _
  rw [herase, insertIdx_append]

/-- **What stands behind the filled places is the pool**, of which settling takes the first index
of the space. -/
theorem settle_append (s : Space) (filled pool : List Index) :
    settle s filled.length (filled ++ pool) =
      (pool.find? (·.space == s)).map fun x => filled ++ x :: pool.eraseP (·.space == s) := by
  cases pool with
  | nil =>
    have hget : (filled ++ [])[filled.length]? = none := by simp
    have hdrop : (filled ++ []).drop (filled.length + 1) = [] :=
      List.drop_eq_nil_iff.mpr (by simp)
    rw [settle, hget, hdrop]
    rfl
  | cons y pool =>
    have hget : (filled ++ y :: pool)[filled.length]? = some y := by simp
    have hdrop : (filled ++ y :: pool).drop (filled.length + 1) = pool := by simp
    rw [settle, hget, hdrop, Option.any_some]
    by_cases hy : (y.space == s) = true
    · rw [if_pos hy]
      simp [hy]
    · have hfind : (y :: pool).find? (·.space == s) =
          (pool.findIdx? (·.space == s)).bind (pool[·]?) := by
        rw [← List.find?_eq_bind_findIdx?_getElem?]
        exact List.find?_cons_of_neg hy
      have herase : (y :: pool).eraseP (·.space == s) = y :: pool.eraseP (·.space == s) :=
        List.eraseP_cons_of_neg hy
      rw [if_neg hy, hfind, herase, List.eraseP_eq_eraseIdx]
      cases hi : pool.findIdx? (·.space == s) with
      | none => rfl
      | some i =>
        obtain ⟨hlt, -, -⟩ := List.findIdx?_eq_some_iff_getElem.mp hi
        have hx : (y :: pool)[1 + i]? = some pool[i] := by
          rw [Nat.add_comm, List.getElem?_cons_succ, List.getElem?_eq_getElem hlt]
        rw [Option.map_some, Nat.add_assoc, moveTo_append hx, Nat.add_comm,
          List.eraseIdx_cons_succ, Option.bind_some, List.getElem?_eq_getElem hlt, Option.map_some]

/-- Rearranging fills the places as the pool does, and stops where the pool runs out. -/
theorem arrangeInPlaceFrom_append (filled pool : List Index) (hlen : pool.length = spaces.length) :
    (∀ ordered, fillFrom filled.length spaces pool = .ok ordered →
      arrangeInPlaceFrom filled.length spaces (filled ++ pool) = .ok (filled ++ ordered)) ∧
    ∀ p s, fillFrom filled.length spaces pool = .error (.missingSpace p s) →
      arrangeInPlaceFrom filled.length spaces (filled ++ pool) = .error p := by
  induction spaces generalizing filled pool with
  | nil =>
    obtain rfl := List.length_eq_zero_iff.mp hlen
    simp [fillFrom, arrangeInPlaceFrom]
  | cons s spaces ih =>
    rw [fillFrom, arrangeInPlaceFrom, settle_append]
    cases hx : pool.find? (·.space == s) with
    | none => simp
    | some x =>
      have hlen' : (pool.eraseP (·.space == s)).length = spaces.length := by
        rw [List.length_eraseP_of_mem (List.mem_of_find?_eq_some hx) (List.find?_some hx), hlen]
        rfl
      obtain ⟨hok, herror⟩ := ih (filled ++ [x]) _ hlen'
      rw [List.length_append, List.length_singleton, List.append_assoc] at hok herror
      simp only [Check.map_eq_ok_iff, Check.map_eq_error_iff]
      constructor
      · rintro _ ⟨ordered, hordered, rfl⟩
        simpa using hok ordered hordered
      · intro p t h
        simpa using herror p t h

/-- **Rearranging the list is arranging the indices.**  The rearranged list is the arrangement,
and where nothing is left to move, arranging finds no index. -/
theorem arrange_iff_arrangeInPlace (indices : List Index) (spaces : List Space)
    (hlen : indices.length = spaces.length) :
    (∀ ordered, arrange indices spaces = .ok ordered ↔
      arrangeInPlace indices spaces = .ok ordered) ∧
    ∀ p, (∃ s, arrange indices spaces = .error (.missingSpace p s)) ↔
      arrangeInPlace indices spaces = .error p := by
  obtain ⟨hok, herror⟩ := arrangeInPlaceFrom_append [] indices hlen
  have harrange : arrange indices spaces = fillFrom 0 spaces indices := if_pos hlen
  rw [harrange, arrangeInPlace]
  cases hfill : fillFrom 0 spaces indices with
  | ok ordered =>
    have hinPlace : arrangeInPlaceFrom 0 spaces indices = .ok ordered := hok ordered hfill
    rw [hinPlace]
    simp
  | error e =>
    obtain ⟨p, s, -, -, rfl⟩ := fillFrom_eq_error_iff.mp hfill
    have hinPlace : arrangeInPlaceFrom 0 spaces indices = .error (0 + p) := herror _ s hfill
    rw [hinPlace]
    simp

/-- Indices of all three spaces, one of which is the only one of its space. -/
def assorted : List Index :=
  [⟨0, .virtual, 0, .creator⟩, ⟨0, .occupied, 0, .creator⟩, ⟨1, .virtual, 0, .creator⟩,
    ⟨0, .active, 0, .creator⟩, ⟨1, .occupied, 0, .creator⟩]

/-- The indices can be arranged by some spaces, and not by others that ask for a second active
index in third place. -/
theorem assorted_arrange_iff_arrangeInPlace :
    (arrange assorted [.occupied, .active, .virtual, .occupied, .virtual] =
        .ok [⟨0, .occupied, 0, .creator⟩, ⟨0, .active, 0, .creator⟩, ⟨0, .virtual, 0, .creator⟩,
          ⟨1, .occupied, 0, .creator⟩, ⟨1, .virtual, 0, .creator⟩] ∧
      ∀ ordered,
        arrange assorted [.occupied, .active, .virtual, .occupied, .virtual] = .ok ordered ↔
          arrangeInPlace assorted [.occupied, .active, .virtual, .occupied, .virtual] =
            .ok ordered) ∧
    arrangeInPlace assorted [.occupied, .active, .active, .occupied, .virtual] = .error 2 ∧
      ∃ s, arrange assorted [.occupied, .active, .active, .occupied, .virtual] =
        .error (.missingSpace 2 s) := by
  have hstop :
      arrangeInPlace assorted [.occupied, .active, .active, .occupied, .virtual] = .error 2 := rfl
  exact ⟨⟨rfl, (arrange_iff_arrangeInPlace _ _ rfl).1⟩, hstop,
    ((arrange_iff_arrangeInPlace _ _ rfl).2 2).mpr hstop⟩

end TensorContraction
