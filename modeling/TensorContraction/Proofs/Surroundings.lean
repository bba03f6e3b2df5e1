import TensorContraction.Command.Run

/-!
# What a run relies on

A run reads, writes, prints and logs through what surrounds it, and knows little about it.  What
it relies on are a few laws, said of what can be seen of a state: what has been printed, what is
left of the standard input, what is at each place, and where paths lead.

Reading changes nothing of it, and neither does logging without a file for the log.  What is
written arrives where its path leads; if it does not, nothing has changed.  Only the standard
output, as it is no file, may take the beginning of a text and not the rest.  A path may lead to
it, too, or to a device that keeps nothing.

Nothing is relied on for the reading of arguments, and nothing but the above for the log.  The laws
hold in a workspace.

## Main definitions

* `View`, `Destination` — what can be seen of a state, and where paths lead.
* `View.Same`, `View.Delivered`, `View.BrokenOff` — what may become of a state.
* `Surroundings.Lawful` — what a run relies on.
* `Workspace.view` — what can be seen of a workspace.

## Main results

* `Workspace.content?_store` — what files hold when one of them is written.
* `Workspace.lawful_usual` — a run can rely on a workspace.
-/

namespace TensorContraction

variable {σ κ : Type}

/-! ### What can be seen -/

/-- Where a path leads. -/
inductive Destination (κ : Type) where
  /-- To the file at a place, which need not be there. -/
  | file (place : κ)
  /-- To the standard output. -/
  | stdout
  /-- To a device that keeps nothing of what is written. -/
  | nowhere

/-- What can be seen of a state. -/
structure View (σ κ : Type) where
  /-- What has been printed. -/
  printed : σ → ByteArray
  /-- What is left of the standard input. -/
  input : σ → ByteArray
  /-- What is at a place, if there is anything. -/
  item? : σ → κ → Option Workspace.Entry
  /-- Where a path leads, if not to a directory or astray. -/
  leads? : σ → String → Option (Destination κ)

namespace View

/-- Nothing that can be seen has been written. -/
structure Unwritten (v : View σ κ) (s s' : σ) : Prop where
  /-- Nothing has been printed. -/
  printed_eq : v.printed s' = v.printed s
  /-- At each place there is what was there. -/
  item_eq : v.item? s' = v.item? s

/-- Nothing has been written, and paths lead where they led. -/
structure Same (v : View σ κ) (s s' : σ) : Prop extends v.Unwritten s s' where
  /-- Paths lead where they led. -/
  leads_eq : v.leads? s' = v.leads? s

/-- Some bytes have been printed, and no file has changed. -/
structure Prints (v : View σ κ) (bytes : ByteArray) (s s' : σ) : Prop where
  /-- They come behind what had been printed. -/
  printed_eq : v.printed s' = v.printed s ++ bytes
  /-- At each place there is what was there. -/
  item_eq : v.item? s' = v.item? s

/-- The beginning of a text has been printed. -/
def BrokenOff (v : View σ κ) (text : String) (s s' : σ) : Prop :=
  ∃ part rest, part ++ rest = text.toUTF8 ∧ v.Prints part s s'

/-- A text has arrived, and nothing else has changed. -/
def Delivered (v : View σ κ) (text : String) (s s' : σ) : Destination κ → Prop
  | .file place => v.item? s' place = some (.file text.toUTF8) ∧
      (∀ p, p ≠ place → v.item? s' p = v.item? s p) ∧ v.printed s' = v.printed s
  | .stdout => v.Prints text.toUTF8 s s'
  | .nowhere => v.Unwritten s s'

variable {v : View σ κ} {s s' s'' : σ}

theorem Same.refl (v : View σ κ) (s : σ) : v.Same s s := ⟨⟨rfl, rfl⟩, rfl⟩

theorem Same.trans (h : v.Same s s') (h' : v.Same s' s'') : v.Same s s'' :=
  ⟨⟨h'.printed_eq.trans h.printed_eq, h'.item_eq.trans h.item_eq⟩, h'.leads_eq.trans h.leads_eq⟩

theorem Same.prints {bytes : ByteArray} (h : v.Same s s') (h' : v.Prints bytes s' s'') :
    v.Prints bytes s s'' :=
  ⟨h.printed_eq ▸ h'.printed_eq, h'.item_eq.trans h.item_eq⟩

theorem Same.brokenOff {text : String} (h : v.Same s s') (h' : v.BrokenOff text s' s'') :
    v.BrokenOff text s s'' := by
  obtain ⟨part, rest, htext, hprints⟩ := h'
  exact ⟨part, rest, htext, h.prints hprints⟩

theorem Same.delivered {text : String} {d : Destination κ} (h : v.Same s s')
    (h' : v.Delivered text s' s'' d) : v.Delivered text s s'' d := by
  cases d with
  | file place =>
    obtain ⟨hplace, hothers, hprinted⟩ := h'
    refine ⟨hplace, fun p hp => ?_, hprinted.trans h.printed_eq⟩
    rw [hothers p hp, h.item_eq]
  | stdout => exact h.prints h'
  | nowhere => exact ⟨h'.printed_eq.trans h.printed_eq, h'.item_eq.trans h.item_eq⟩

end View

/-! ### The laws -/

/-- A text of whole lines. -/
def WholeLines (text : String) : Prop := text = "" ∨ ∃ before, text = before ++ "\n"

/-- What a run relies on. -/
structure Surroundings.Lawful (around : Surroundings (StateM σ)) (v : View σ κ) : Prop where
  /-- Reading the standard input writes nothing. -/
  stdin_same {s s' : σ} {read : Except AccessError String} (h : around.stdin.run s = (read, s')) :
    v.Same s s'
  /-- What is read is all that was left of the standard input. -/
  stdin_eq {s s' : σ} {text : String} (h : around.stdin.run s = (.ok text, s')) :
    v.input s = text.toUTF8
  /-- Reading a file changes nothing. -/
  get_same {s s' : σ} {path : String} {read : Except AccessError String}
    (h : (around.get path).run s = (read, s')) : v.Same s s'
  /-- What is read is what the file holds that the path leads to. -/
  get_eq {s s' : σ} {path text : String} {place : κ}
    (h : (around.get path).run s = (.ok text, s')) (hpath : v.leads? s path = some (.file place)) :
    v.item? s place = some (.file text.toUTF8)
  /-- What can be written arrives where the path leads. -/
  put_delivered {s s' : σ} {path text : String} (h : (around.put path text).run s = (.ok (), s')) :
    ∃ d, v.leads? s path = some d ∧ v.Delivered text s s' d
  /-- What cannot be written changes no file, and nothing at all unless the path leads to the
  standard output. -/
  put_failed {s s' : σ} {path text : String} {why : AccessError}
    (h : (around.put path text).run s = (.error why, s')) :
    v.Same s s' ∨ v.leads? s path = some .stdout ∧ v.BrokenOff text s s'
  /-- Whole lines that can be printed have been printed.  Nothing is said of others, as the last
  line may be held back. -/
  print_delivered {s s' : σ} {text : String} (hlines : WholeLines text)
    (h : (around.print text).run s = (.ok (), s')) : v.Prints text.toUTF8 s s'
  /-- Of what cannot be printed the beginning may have been printed. -/
  print_failed {s s' : σ} {text : String} {why : AccessError}
    (h : (around.print text).run s = (.error why, s')) : v.BrokenOff text s s'
  /-- Without a file for the log nothing is written to get it ready. -/
  startLog_same {s s' : σ} {c : Command} {started : Except LogError Unit}
    (hlog : c.logFile? = none) (h : (around.startLog c).run s = (started, s')) : v.Same s s'
  /-- Nothing is read for it either. -/
  startLog_input {s s' : σ} {c : Command} {started : Except LogError Unit}
    (hlog : c.logFile? = none) (h : (around.startLog c).run s = (started, s')) :
    v.input s' = v.input s
  /-- Without a file for the log nothing is written when events are logged.  The standard error is
  neither a file nor the standard output. -/
  log_same {s s' : σ} {c : Command} {events : List Event} (hlog : c.logFile? = none)
    (h : (around.log c events).run s = ((), s')) : v.Same s s'

/-! ### Workspaces -/

namespace Workspace

variable {w : Workspace} {place here there : Place} {content : ByteArray} {path text name : String}

theorem lookup_overwrite (files : List (Place × ByteArray)) (p : Place) :
    (files.map fun (q, old) => (q, if q = place then content else old)).lookup p =
      if p = place then (files.lookup place).map fun _ => content else files.lookup p := by
  induction files with
  | nil => simp
  | cons file files ih =>
    obtain ⟨q, old⟩ := file
    rw [List.map_cons, List.lookup_cons, List.lookup_cons, List.lookup_cons, ih]
    by_cases hq : p = q
    · subst hq
      by_cases hp : p = place
      · subst hp
        simp
      · simp [hp]
    · have hkey : (p == q) = false := beq_false_of_ne hq
      by_cases hp : p = place
      · subst hp
        simp [hkey]
      · simp [hkey, hp]

/-- **A written file holds what was written, and all others hold what they held.** -/
theorem content?_store (w : Workspace) (place p : Place) (content : ByteArray) :
    (w.store place content).content? p = if p = place then some content else w.content? p := by
  unfold store
  cases hold : w.content? place with
  | some old =>
    rw [if_pos Option.isSome_some, content?, lookup_overwrite]
    split
    · rw [show w.files.lookup place = some old from hold, Option.map_some]
    · rfl
  | none =>
    rw [if_neg (by simp), content?, List.lookup_append, List.lookup_cons, List.lookup_nil]
    by_cases hp : p = place
    · subst hp
      rw [show w.files.lookup p = none from hold]
      simp
    · simp [content?, hp, beq_false_of_ne hp]

theorem directories_store (w : Workspace) (place : Place) (content : ByteArray) :
    (w.store place content).directories = w.directories := by
  unfold store
  split <;> rfl

theorem printed_store (w : Workspace) (place : Place) (content : ByteArray) :
    (w.store place content).printed = w.printed := by
  unfold store
  split <;> rfl

theorem entry?_store_of_ne (hne : there ≠ place) :
    entry? (w.store place content) there = w.entry? there := by
  unfold entry?
  rw [content?_store, if_neg hne, directories_store]

theorem entry?_store_self (hplace : place.device? = none) :
    entry? (w.store place content) place = some (.file content) := by
  unfold entry?
  rw [hplace, content?_store, if_pos rfl]

theorem named_eq_ok_iff {entry : Entry} :
    w.named here name = .ok entry ↔
      isLongName name = false ∧ w.entry? (.child name here) = some entry := by
  unfold named
  cases isLongName name with
  | true => simp
  | false => cases w.entry? (.child name here) <;> simp

theorem named_eq_missing_iff :
    w.named here name = .error .missing ↔
      isLongName name = false ∧ w.entry? (.child name here) = none := by
  unfold named
  cases isLongName name with
  | true => simp
  | false => cases w.entry? (.child name here) <;> simp

/-- What is kept in a workspace is no device. -/
theorem entry?_eq_device_iff {d : Device} :
    w.entry? place = some (.device d) ↔ place.device? = some d := by
  unfold entry?
  cases place.device? with
  | some e => simp
  | none =>
    cases w.content? place with
    | some content => simp
    | none => cases place <;> simp

theorem device?_eq_none (h : ∀ d, w.entry? place ≠ some (.device d)) : place.device? = none :=
  Option.eq_none_iff_forall_ne_some.mpr fun d hd => h d (entry?_eq_device_iff.mpr hd)

/-- A path that leads to a file has a last step, and no device is there. -/
theorem exists_of_outlet_eq_file (h : w.outlet path = .ok (.file place)) :
    ∃ holder name, w.goal path = .ok (.inside holder name) ∧ place = .child name holder ∧
      place.device? = none := by
  unfold outlet at h
  split at h
  · cases h
  · cases h
  · next holder name hgoal =>
    refine ⟨holder, name, hgoal, ?_⟩
    split at h
    · cases h
    split at h
    · cases h
    · cases h
    · next old hnamed =>
      obtain rfl : .child name holder = place := Outlet.file.inj (Except.ok.inj h)
      have hentry := (named_eq_ok_iff.mp hnamed).2
      exact ⟨rfl, device?_eq_none fun d => by rw [hentry]; simp⟩
    · next hnamed =>
      obtain rfl : .child name holder = place := Outlet.file.inj (Except.ok.inj h)
      have hentry := (named_eq_missing_iff.mp hnamed).2
      exact ⟨rfl, device?_eq_none fun d => by rw [hentry]; simp⟩
    · cases h

theorem eq_of_textOfBytes (h : textOfBytes content = .ok text) : content = text.toUTF8 := by
  unfold textOfBytes String.fromUTF8? at h
  split at h
  · next t ht =>
    obtain rfl : t = text := Except.ok.inj h
    split at ht
    · obtain rfl := Option.some.inj ht
      rfl
    · cases ht
  · cases h

/-- What is read is what the file holds that the path leads to. -/
theorem entry?_of_get (h : w.get path = .ok text) (hpath : w.outlet path = .ok (.file place)) :
    w.entry? place = some (.file text.toUTF8) := by
  obtain ⟨holder, name, hgoal, rfl, hdevice⟩ := exists_of_outlet_eq_file hpath
  rw [get, hgoal] at h
  dsimp only at h
  split at h
  · cases h
  · cases h
  · next bytes hnamed =>
    split at h
    · cases h
    · rw [(named_eq_ok_iff.mp hnamed).2, eq_of_textOfBytes h]
  · next d hnamed =>
    have hd := entry?_eq_device_iff.mp (named_eq_ok_iff.mp hnamed).2
    cases hdevice.symm.trans hd

/-! ### The view of a workspace -/

/-- What can be seen of a workspace. -/
def view : View Workspace Place where
  printed w := w.printed.toUTF8
  input w := w.input
  item? w := w.entry?
  leads? w path :=
    match w.outlet path with
    | .ok (.file place) => some (.file place)
    | .ok (.device .stdout) => some .stdout
    | .ok (.device _) => some .nowhere
    | .error _ => none

/-- The beginning of a text is printed, and all of it if that succeeds. -/
theorem exists_print (w : Workspace) (text : String) : ∃ part rest, part ++ rest = text ∧
    view.Prints part.toUTF8 w (w.print text).2 ∧ ((w.print text).1 = .ok () → rest = "") := by
  have hprinted (part : String) : (w.printed ++ part).toUTF8 = w.printed.toUTF8 ++ part.toUTF8 :=
    String.toByteArray_append
  unfold print
  cases w.room? with
  | none => exact ⟨text, "", String.append_empty, ⟨hprinted text, rfl⟩, fun _ => rfl⟩
  | some room =>
    refine ⟨String.ofList (text.toList.take room), String.ofList (text.toList.drop room), ?_,
      ⟨hprinted _, rfl⟩, fun h => ?_⟩
    · rw [← String.ofList_append, List.take_append_drop, String.ofList_toList]
    · have hfits : text.length ≤ room :=
        Decidable.byContradiction fun hlong => by simp [hlong] at h
      rw [← String.length_toList] at hfits
      rw [List.drop_eq_nil_of_le hfits, String.ofList_nil]

theorem print_prints {w' : Workspace} (h : w.print text = (.ok (), w')) :
    view.Prints text.toUTF8 w w' := by
  obtain ⟨part, rest, rfl, hprints, hrest⟩ := exists_print w text
  rw [h] at hprints hrest
  rwa [hrest rfl, String.append_empty]

theorem print_brokenOff {w' : Workspace} {why : AccessError}
    (h : w.print text = (.error why, w')) : view.BrokenOff text w w' := by
  obtain ⟨part, rest, rfl, hprints, -⟩ := exists_print w text
  rw [h] at hprints
  exact ⟨part.toUTF8, rest.toUTF8, String.toByteArray_append.symm, hprints⟩

theorem store_delivered (hplace : place.device? = none) :
    view.Delivered text w (w.store place text.toUTF8) (.file place) := by
  refine ⟨entry?_store_self hplace, fun p hp => entry?_store_of_ne hp, ?_⟩
  exact congrArg String.toUTF8 (printed_store w place text.toUTF8)

theorem put_delivered {w' : Workspace} (h : w.put path text = (.ok (), w')) :
    ∃ d, view.leads? w path = some d ∧ view.Delivered text w w' d := by
  unfold put at h
  cases houtlet : w.outlet path with
  | error why => simp [houtlet] at h
  | ok outlet =>
    rw [houtlet] at h
    cases outlet with
    | file place =>
      obtain rfl : w.store place text.toUTF8 = w' := (Prod.ext_iff.mp h).2
      obtain ⟨holder, name, -, -, hplace⟩ := exists_of_outlet_eq_file houtlet
      exact ⟨.file place, by simp [view, houtlet], store_delivered hplace⟩
    | device d =>
      cases d with
      | stdout => exact ⟨.stdout, by simp [view, houtlet], print_prints h⟩
      | null | stdin | stderr | full =>
        obtain rfl : _ = w' := (Prod.ext_iff.mp h).2
        exact ⟨.nowhere, by simp [view, houtlet], ⟨rfl, rfl⟩⟩

theorem put_failed {w' : Workspace} {why : AccessError}
    (h : w.put path text = (.error why, w')) :
    view.Same w w' ∨ view.leads? w path = some .stdout ∧ view.BrokenOff text w w' := by
  unfold put at h
  cases houtlet : w.outlet path with
  | error why' =>
    rw [houtlet] at h
    obtain rfl : w = w' := (Prod.ext_iff.mp h).2
    exact .inl (.refl view w)
  | ok outlet =>
    rw [houtlet] at h
    cases outlet with
    | file place => cases (Prod.ext_iff.mp h).1
    | device d =>
      cases d with
      | stdout => exact .inr ⟨by simp [view, houtlet], print_brokenOff h⟩
      | full =>
        obtain rfl : w = w' := (Prod.ext_iff.mp h).2
        exact .inl (.refl view w)
      | null | stdin | stderr => cases (Prod.ext_iff.mp h).1

theorem prepareLog_run {c : Command} (hlog : c.logFile? = none) (w : Workspace) :
    (c.prepareLog access).run w = (.ok (), w) := by
  unfold Command.prepareLog
  rw [hlog]
  rfl

theorem writeLog_run {c : Command} (hlog : c.logFile? = none) (events : List Event)
    (w : Workspace) : (c.writeLog access events).run w = ((), w) := by
  unfold Command.writeLog
  rw [hlog]
  rfl

/-- **A run can rely on a workspace.** -/
theorem lawful_usual : (Surroundings.usual access).Lawful view where
  stdin_same := by
    intro w w' read h
    obtain rfl : w = w' := (Prod.ext_iff.mp h).2
    exact .refl view w
  stdin_eq h := eq_of_textOfBytes (Prod.ext_iff.mp h).1
  get_same := by
    intro w w' path read h
    obtain rfl : w = w' := (Prod.ext_iff.mp h).2
    exact .refl view w
  get_eq := by
    intro w w' path text place h hpath
    refine entry?_of_get (Prod.ext_iff.mp h).1 ?_
    dsimp only [view] at hpath
    split at hpath
    · next houtlet =>
      obtain rfl := Destination.file.inj (Option.some.inj hpath)
      exact houtlet
    all_goals cases hpath
  put_delivered h := put_delivered h
  put_failed h := put_failed h
  print_delivered _ h := print_prints h
  print_failed h := print_brokenOff h
  startLog_same hlog h := by
    obtain ⟨-, rfl⟩ := Prod.ext_iff.mp ((prepareLog_run hlog _).symm.trans h)
    exact .refl view _
  startLog_input hlog h := by
    obtain ⟨-, rfl⟩ := Prod.ext_iff.mp ((prepareLog_run hlog _).symm.trans h)
    rfl
  log_same hlog h := by
    obtain ⟨-, rfl⟩ := Prod.ext_iff.mp ((writeLog_run hlog _ _).symm.trans h)
    exact .refl view _

end Workspace
end TensorContraction
