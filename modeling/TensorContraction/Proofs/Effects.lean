import TensorContraction.Proofs.Journal
import TensorContraction.Proofs.Surroundings

/-!
# What a run leaves behind

Delivering its output is the last thing a run does, after everything else that can fail: the
arguments are read, then the input, which is rendered as a whole, and only then is there something
to write or to print.  So a run that fails has changed no file, and one that succeeds has delivered
its output in one place and changed nothing else.  The input has been read by then, so the output
may go to the file it came from.

The standard output is the one place where a run that fails can leave something.  It may take the
beginning of an output and not the rest, and then that is the failure.  It is also a place to which
the path of an output can lead, and then a run prints although it has been given a path.

## Main definitions

* `Command.Plain` — arguments that ask for nothing but a rendering.
* `Command.Renders` — the input of a command can be read and rendered.
* `Command.AllOrNothing` — what comes of a run.
* `Workspace.Strict` — what comes of a run if no path leads to the standard output and nothing is
  broken off.

## Main results

* `wholeLines_of_render` — every output consists of whole lines.
* `Command.perform_ends` — how a run ends, stage by stage.
* `Command.performArguments_allOrNothing` — a run that fails changes no file.
* `Workspace.not_strict` — on the standard output a run that fails can leave something.
-/

namespace TensorContraction

variable {σ κ : Type}

/-! ### Whole lines -/

theorem WholeLines.append {a b : String} (ha : WholeLines a) (hb : WholeLines b) :
    WholeLines (a ++ b) := by
  rcases hb with rfl | ⟨before, rfl⟩
  · rwa [String.append_empty]
  · exact .inr ⟨a ++ before, (String.append_assoc ..).symm⟩

theorem wholeLines_join {texts : List String} (h : ∀ text ∈ texts, WholeLines text) :
    WholeLines (String.join texts) := by
  induction texts with
  | nil => exact .inl rfl
  | cons text texts ih =>
    rw [String.join_cons]
    exact (h text List.mem_cons_self).append (ih fun t ht => h t (List.mem_cons_of_mem text ht))

/-- Every target is written in whole lines. -/
theorem wholeLines_of_write {o : Options} {cs : List Contraction} {output : String}
    (h : (write o cs).outcome = .ok output) : WholeLines output := by
  unfold write at h
  cases htarget : o.target with
  | tex =>
    rw [htarget] at h
    obtain rfl : Tex.document cs = output := Except.ok.inj h
    refine wholeLines_join fun text htext => ?_
    obtain ⟨c, -, rfl⟩ := List.mem_map.mp htext
    exact .inr ⟨_, rfl⟩
  | sequant =>
    rw [htarget] at h
    obtain ⟨terms, -, h⟩ := Journal.bind_outcome_eq_ok_iff.mp h
    obtain rfl : Sequant.document terms = output := Except.ok.inj h
    refine wholeLines_join fun text htext => ?_
    obtain ⟨⟨result, members⟩, -, rfl⟩ := List.mem_map.mp htext
    have hheader : WholeLines (Sequant.tensor result ++ " =\n") := by
      refine .inr ⟨Sequant.tensor result ++ " =", ?_⟩
      rw [String.append_assoc]
      rfl
    refine hheader.append (wholeLines_join fun line hline => ?_)
    obtain ⟨t, -, rfl⟩ := List.mem_map.mp hline
    exact .inr ⟨_, rfl⟩
  | json =>
    rw [htarget] at h
    obtain ⟨terms, -, h⟩ := Journal.bind_outcome_eq_ok_iff.mp h
    obtain rfl : Structured.document terms = output := Except.ok.inj h
    exact .inr ⟨_, rfl⟩

/-- **Every output consists of whole lines.** -/
theorem wholeLines_of_render {o : Options} {text output : String}
    (h : (render o text).outcome = .ok output) : WholeLines output := by
  unfold render at h
  obtain ⟨records, -, h⟩ := Journal.bind_outcome_eq_ok_iff.mp h
  obtain ⟨cs, -, h⟩ := Journal.bind_outcome_eq_ok_iff.mp h
  obtain ⟨written, hwritten, h⟩ := Journal.bind_outcome_eq_ok_iff.mp h
  obtain ⟨-, -, h⟩ := Journal.bind_outcome_eq_ok_iff.mp h
  obtain rfl : written = output := Except.ok.inj h
  exact wholeLines_of_write (Check.mapError_eq_ok_iff.mp hwritten)

namespace Command

variable {around : Surroundings (StateM σ)} {v : View σ κ} {c : Command} {s s' mid : σ}
  {text output : String} {f : Failure}

/-! ### Reading and delivering -/

/-- A text is what there is for a command to read. -/
structure Finds (v : View σ κ) (c : Command) (s : σ) (text : String) : Prop where
  /-- It is left of the standard input, if that is what the command reads. -/
  stdin_eq : c.readsStdin = true → v.input s = text.toUTF8
  /-- Otherwise it is what the file holds that the path of the input leads to. -/
  file_eq : c.readsStdin = false → ∀ place, v.leads? s c.input = some (.file place) →
    v.item? s place = some (.file text.toUTF8)

/-- Where the output of a command goes. -/
def destination? (v : View σ κ) (c : Command) (s : σ) : Option (Destination κ) :=
  match c.output? with
  | none => some .stdout
  | some path => v.leads? s path

theorem destination?_of_same (h : v.Same s s') : c.destination? v s' = c.destination? v s := by
  unfold destination?
  rw [h.leads_eq]

/-- A command reads the standard input or a file. -/
theorem readInput_cases {read : Except Failure String}
    (h : (c.readInput around.toFiles).run s = (read, s')) :
    (c.readsStdin = true ∧ ∃ x, around.stdin.run s = (x, s') ∧ x.mapError .stdin = read) ∨
      c.readsStdin = false ∧
        ∃ x, (around.get c.input).run s = (x, s') ∧ x.mapError (.input c.input) = read := by
  unfold readInput at h
  cases hstdin : c.readsStdin with
  | true =>
    rw [hstdin] at h
    obtain ⟨rfl, rfl⟩ := Prod.ext_iff.mp h
    exact .inl ⟨rfl, _, rfl, rfl⟩
  | false =>
    rw [hstdin] at h
    obtain ⟨rfl, rfl⟩ := Prod.ext_iff.mp h
    exact .inr ⟨rfl, _, rfl, rfl⟩

theorem readInput_same (hlaws : around.Lawful v) {read : Except Failure String}
    (h : (c.readInput around.toFiles).run s = (read, s')) : v.Same s s' := by
  rcases readInput_cases h with ⟨-, x, hstdin, -⟩ | ⟨-, x, hget, -⟩
  · exact hlaws.stdin_same hstdin
  · exact hlaws.get_same hget

theorem finds_of_readInput (hlaws : around.Lawful v)
    (h : (c.readInput around.toFiles).run s = (.ok text, s')) : c.Finds v s text := by
  rcases readInput_cases h with ⟨hreads, x, hstdin, hx⟩ | ⟨hreads, x, hget, hx⟩
  · obtain rfl := Check.mapError_eq_ok_iff.mp hx
    exact ⟨fun _ => hlaws.stdin_eq hstdin, fun hfile => by simp [hreads] at hfile⟩
  · obtain rfl := Check.mapError_eq_ok_iff.mp hx
    exact ⟨fun hin => by simp [hreads] at hin, fun _ place => hlaws.get_eq hget⟩

/-- An output is printed or written to a path. -/
theorem deliver_cases {delivered : Except Failure Unit}
    (h : (c.deliver around.toFiles output).run s = (delivered, s')) :
    (c.output? = none ∧
        ∃ x, (around.print output).run s = (x, s') ∧ x.mapError .stdout = delivered) ∨
      ∃ path, c.output? = some path ∧
        ∃ x, (around.put path output).run s = (x, s') ∧ x.mapError (.output path) = delivered := by
  unfold deliver at h
  cases houtput : c.output? with
  | none =>
    rw [houtput] at h
    obtain ⟨rfl, rfl⟩ := Prod.ext_iff.mp h
    exact .inl ⟨rfl, _, rfl, rfl⟩
  | some path =>
    rw [houtput] at h
    obtain ⟨rfl, rfl⟩ := Prod.ext_iff.mp h
    exact .inr ⟨path, rfl, _, rfl, rfl⟩

theorem deliver_delivered (hlaws : around.Lawful v) (hlines : WholeLines output)
    (h : (c.deliver around.toFiles output).run s = (.ok (), s')) :
    ∃ d, c.destination? v s = some d ∧ v.Delivered output s s' d := by
  unfold destination?
  rcases deliver_cases h with ⟨houtput, x, hprint, hx⟩ | ⟨path, houtput, x, hput, hx⟩
  · obtain rfl := Check.mapError_eq_ok_iff.mp hx
    rw [houtput]
    exact ⟨.stdout, rfl, hlaws.print_delivered hlines hprint⟩
  · obtain rfl := Check.mapError_eq_ok_iff.mp hx
    rw [houtput]
    exact hlaws.put_delivered hput

theorem deliver_failed (hlaws : around.Lawful v)
    (h : (c.deliver around.toFiles output).run s = (.error f, s')) :
    v.Same s s' ∨ c.destination? v s = some .stdout ∧ v.BrokenOff output s s' := by
  unfold destination?
  rcases deliver_cases h with ⟨houtput, x, hprint, hx⟩ | ⟨path, houtput, x, hput, hx⟩
  · obtain ⟨why, rfl, -⟩ := Check.mapError_eq_error_iff.mp hx
    rw [houtput]
    exact .inr ⟨rfl, hlaws.print_failed hprint⟩
  · obtain ⟨why, rfl, -⟩ := Check.mapError_eq_error_iff.mp hx
    rw [houtput]
    exact hlaws.put_failed hput

/-! ### Stages of a run -/

/-- A run takes its input, and logs what there is to log of rendering it. -/
inductive Takes (around : Surroundings (StateM σ)) (c : Command) (s : σ) : String → σ → Prop
  /-- The log is ready, and the input can be read. -/
  | stages {text : String} {s₁ s₂ : σ} (hstart : (around.startLog c).run s = (.ok (), s₁))
    (hread : (c.readInput around.toFiles).run s₁ = (.ok text, s₂)) :
    Takes around c s text ((around.log c (c.render text).events).run s₂).2

/-- How a run ends. -/
inductive Ends (around : Surroundings (StateM σ)) (c : Command) (s : σ) : Closing × σ → Prop
  /-- The log cannot be got ready. -/
  | unready {why : LogError} {s' : σ} (hstart : (around.startLog c).run s = (.error why, s')) :
    Ends around c s (c.failed [] (.log why), s')
  /-- The input cannot be read. -/
  | unread {f : Failure} {s₁ s' : σ} (hstart : (around.startLog c).run s = (.ok (), s₁))
    (hread : (c.readInput around.toFiles).run s₁ = (.error f, s')) :
    Ends around c s (c.failed [] f, s')
  /-- The input cannot be rendered. -/
  | unrendered {f : Failure} {text : String} {s' : σ} (htakes : c.Takes around s text s')
    (hrender : (c.render text).outcome = .error f) :
    Ends around c s (c.failed (c.render text).events f, s')
  /-- The output cannot be delivered. -/
  | undelivered {f : Failure} {text output : String} {mid s' : σ}
    (htakes : c.Takes around s text mid) (hrender : (c.render text).outcome = .ok output)
    (hdeliver : (c.deliver around.toFiles output).run mid = (.error f, s')) :
    Ends around c s (c.failed (c.render text).events f, s')
  /-- Nothing goes wrong. -/
  | done {text output : String} {mid s' : σ} (htakes : c.Takes around s text mid)
    (hrender : (c.render text).outcome = .ok output)
    (hdeliver : (c.deliver around.toFiles output).run mid = (.ok (), s')) :
    Ends around c s (c.succeeded (c.render text).events, s')

/-- **A run, stage by stage.** -/
theorem perform_run (around : Surroundings (StateM σ)) (c : Command) (s : σ) :
    (c.perform around).run s =
      match (around.startLog c).run s with
      | (.error why, s₁) => (c.failed [] (.log why), s₁)
      | (.ok (), s₁) =>
        match (c.readInput around.toFiles).run s₁ with
        | (.error f, s₂) => (c.failed [] f, s₂)
        | (.ok text, s₂) =>
          let mid := ((around.log c (c.render text).events).run s₂).2
          match (c.render text).outcome with
          | .error f => (c.failed (c.render text).events f, mid)
          | .ok output =>
            match (c.deliver around.toFiles output).run mid with
            | (.error f, s') => (c.failed (c.render text).events f, s')
            | (.ok (), s') => (c.succeeded (c.render text).events, s') := by
  unfold perform
  rw [StateT.run_bind]
  obtain ⟨_ | ⟨⟩, s₁⟩ := (around.startLog c).run s
  · rfl
  dsimp only
  change (c.performReady around).run s₁ = _
  unfold performReady
  rw [StateT.run_bind]
  obtain ⟨_ | text, s₂⟩ := (c.readInput around.toFiles).run s₁
  · rfl
  dsimp only
  change (around.log c (c.render text).events >>= fun _ => _).run s₂ = _
  rw [StateT.run_bind]
  generalize (around.log c (c.render text).events).run s₂ = logged
  cases (c.render text).outcome with
  | error f => rfl
  | ok output =>
    dsimp only
    change (c.deliver around.toFiles output >>= fun _ => _).run logged.2 = _
    rw [StateT.run_bind]
    obtain ⟨_ | ⟨⟩, s'⟩ := (c.deliver around.toFiles output).run logged.2 <;> rfl

/-- A run ends at the first stage that fails, or after all of them. -/
theorem perform_ends (around : Surroundings (StateM σ)) (c : Command) (s : σ) :
    Ends around c s ((c.perform around).run s) := by
  rw [perform_run]
  rcases hstart : (around.startLog c).run s with ⟨why | ⟨⟩, s₁⟩
  · exact .unready hstart
  dsimp only
  rcases hread : (c.readInput around.toFiles).run s₁ with ⟨f | text, s₂⟩
  · exact .unread hstart hread
  have htakes : c.Takes around s text _ := .stages hstart hread
  dsimp only
  cases hrender : (c.render text).outcome with
  | error f => exact .unrendered htakes hrender
  | ok output =>
    dsimp only
    rcases hdeliver : (c.deliver around.toFiles output).run _ with ⟨f | ⟨⟩, s'⟩
    · exact .undelivered htakes hrender hdeliver
    · exact .done htakes hrender hdeliver

theorem perform_of_done (htakes : c.Takes around s text mid)
    (hrender : (c.render text).outcome = .ok output)
    (hdeliver : (c.deliver around.toFiles output).run mid = (.ok (), s')) :
    (c.perform around).run s = (c.succeeded (c.render text).events, s') := by
  cases htakes with
  | stages hstart hread =>
    simp only [perform_run, hstart, hread, hrender, hdeliver]

/-! ### What a run leaves -/

theorem outcome_render_eq_ok_iff :
    (c.render text).outcome = .ok output ↔
      (TensorContraction.render ⟨c.target, c.keepGoing⟩ text).outcome = .ok output := by
  unfold render
  simp only [Journal.bind_outcome_eq_ok_iff, Journal.mapError, Check.mapError_eq_ok_iff]
  constructor
  · rintro ⟨-, -, h⟩
    exact h
  · intro h
    exact ⟨(), rfl, h⟩

/-- The input of a command can be read, and can be rendered as it is asked for. -/
structure Renders (around : Surroundings (StateM σ)) (v : View σ κ) (c : Command) (s : σ)
    (text output : String) : Prop extends c.Finds v s text where
  /-- The input can be read while everything is still as it was. -/
  exists_read : ∃ s₁ s₂, v.Same s s₁ ∧ (c.readInput around.toFiles).run s₁ = (.ok text, s₂)
  /-- What has been read can be rendered. -/
  render_eq : (TensorContraction.render ⟨c.target, c.keepGoing⟩ text).outcome = .ok output

/-- Nothing is written before there is an output. -/
theorem Takes.same (hlaws : around.Lawful v) (hlog : c.logFile? = none)
    (h : c.Takes around s text mid) : v.Same s mid := by
  cases h with
  | stages hstart hread =>
    have hready := hlaws.startLog_same hlog hstart
    have hknown := readInput_same hlaws hread
    exact (hready.trans hknown).trans (hlaws.log_same hlog rfl)

theorem Takes.renders (hlaws : around.Lawful v) (hlog : c.logFile? = none)
    (h : c.Takes around s text mid) (hrender : (c.render text).outcome = .ok output) :
    c.Renders around v s text output := by
  cases h with
  | @stages s₁ s₂ hstart hread =>
    have hsame := hlaws.startLog_same hlog hstart
    have hinput := hlaws.startLog_input hlog hstart
    obtain ⟨hstdin, hfile⟩ := finds_of_readInput hlaws hread
    refine ⟨⟨fun h => hinput ▸ hstdin h, fun h place hpath => ?_⟩, ⟨s₁, s₂, hsame, hread⟩,
      outcome_render_eq_ok_iff.mp hrender⟩
    rw [← hsame.item_eq]
    exact hfile h place (hsame.leads_eq ▸ hpath)

/-- What comes of a run: its output, delivered in one place, or nothing. -/
structure AllOrNothing (around : Surroundings (StateM σ)) (v : View σ κ)
    (arguments : List String) (s : σ) (out : Closing × σ) : Prop where
  /-- A run that fails has written nothing, unless its output was to go to the standard output:
  then a beginning of it may have been printed, and nothing else. -/
  failure : out.1.code ≠ 0 → v.Same s out.2 ∨
    ∃ c text output, around.parse arguments = .ok c ∧ c.Renders around v s text output ∧
      c.destination? v s = some .stdout ∧ v.BrokenOff output s out.2
  /-- A run that succeeds has read its input and rendered it as it was asked to.  It has delivered
  what came of it, and has written nothing else. -/
  success : out.1.code = 0 →
    ∃ c text output d, around.parse arguments = .ok c ∧ c.Renders around v s text output ∧
      c.destination? v s = some d ∧ v.Delivered output s out.2 d
  /-- A run succeeds where no stage fails. -/
  succeeds : ∀ c text output mid s', around.parse arguments = .ok c →
    c.Takes around s text mid → (c.render text).outcome = .ok output →
    (c.deliver around.toFiles output).run mid = (.ok (), s') →
    out = (c.succeeded (c.render text).events, s')

/-- Arguments that ask for nothing but a rendering. -/
structure Plain (parse : List String → Except Interruption Command) (arguments : List String) :
    Prop where
  /-- They ask for no log. -/
  unlogged : ∀ c, parse arguments = .ok c → c.logFile? = none
  /-- They do not ask how to call the program. -/
  ne_help : parse arguments ≠ .error .help
  /-- They do not ask for its version. -/
  ne_version : parse arguments ≠ .error .version

theorem perform_allOrNothing (hlaws : around.Lawful v) {arguments : List String}
    (hparse : around.parse arguments = .ok c) (hlog : c.logFile? = none) (s : σ) :
    AllOrNothing around v arguments s ((c.perform around).run s) := by
  have hsucceeds (c' : Command) (text output : String) (mid s' : σ)
      (hparse' : around.parse arguments = .ok c') (htakes : c'.Takes around s text mid)
      (hrender : (c'.render text).outcome = .ok output)
      (hdeliver : (c'.deliver around.toFiles output).run mid = (.ok (), s')) :
      (c.perform around).run s = (c'.succeeded (c'.render text).events, s') := by
    obtain rfl : c = c' := Except.ok.inj (hparse.symm.trans hparse')
    exact perform_of_done htakes hrender hdeliver
  have hends := perform_ends around c s
  generalize (c.perform around).run s = out at hsucceeds hends
  cases hends with
  | unready hstart =>
    have hsame := hlaws.startLog_same hlog hstart
    exact ⟨fun _ => .inl hsame, fun h => absurd h Nat.one_ne_zero, hsucceeds⟩
  | unread hstart hread =>
    have hsame := (hlaws.startLog_same hlog hstart).trans (readInput_same hlaws hread)
    exact ⟨fun _ => .inl hsame, fun h => absurd h Nat.one_ne_zero, hsucceeds⟩
  | unrendered htakes hrender =>
    exact ⟨fun _ => .inl (htakes.same hlaws hlog), fun h => absurd h Nat.one_ne_zero, hsucceeds⟩
  | undelivered htakes hrender hdeliver =>
    refine ⟨fun _ => ?_, fun h => absurd h Nat.one_ne_zero, hsucceeds⟩
    have hsame := htakes.same hlaws hlog
    rcases deliver_failed hlaws hdeliver with hlost | ⟨hstdout, hbroken⟩
    · exact .inl (hsame.trans hlost)
    · rw [destination?_of_same hsame] at hstdout
      exact .inr ⟨c, _, _, hparse, htakes.renders hlaws hlog hrender, hstdout,
        hsame.brokenOff hbroken⟩
  | done htakes hrender hdeliver =>
    refine ⟨fun h => absurd rfl h, fun _ => ?_, hsucceeds⟩
    have hsame := htakes.same hlaws hlog
    have hlines := wholeLines_of_render (outcome_render_eq_ok_iff.mp hrender)
    obtain ⟨d, hd, hdelivered⟩ := deliver_delivered hlaws hlines hdeliver
    rw [destination?_of_same hsame] at hd
    exact ⟨c, _, _, d, hparse, htakes.renders hlaws hlog hrender, hd, hsame.delivered hdelivered⟩

/-- **A run that fails changes no file**, and one that succeeds leaves its output and nothing
else, be it in the file that the input came from.  Only on the standard output a run that fails can
leave something: the beginning of its output. -/
theorem performArguments_allOrNothing (hlaws : around.Lawful v) {arguments : List String}
    (h : Plain around.parse arguments) (s : σ) :
    AllOrNothing around v arguments s ((performArguments around arguments).run s) := by
  unfold performArguments
  cases hparse : around.parse arguments with
  | ok c => exact perform_allOrNothing hlaws hparse (h.unlogged c hparse) s
  | error interruption =>
    cases interruption with
    | help => exact absurd hparse h.ne_help
    | version => exact absurd hparse h.ne_version
    | usage =>
      refine ⟨fun _ => .inl (.refl v s), fun h => absurd h (Nat.succ_ne_zero 1), ?_⟩
      intro c text output mid s' hc
      cases hparse.symm.trans hc

end Command

namespace Workspace

/-- An export without records, written over by what it is rendered as. -/
theorem performArguments_allOrNothing_into_input :
    (Surroundings.usual access).Lawful view ∧
      Command.Plain Command.ofArguments ["-f", "json", "a.lst", "-o", "./a.lst"] ∧
      (run ["-f", "json", "a.lst", "-o", "./a.lst"] (ofFiles [("a.lst", "[END]")] "")).1.code = 0 ∧
      (run ["-f", "json", "a.lst", "-o", "./a.lst"]
        (ofFiles [("a.lst", "[END]")] "")).2.get "a.lst" = .ok "[]\n" ∧
      Command.AllOrNothing (.usual access) view ["-f", "json", "a.lst", "-o", "./a.lst"]
        (ofFiles [("a.lst", "[END]")] "")
        ((Command.performArguments (.usual access) ["-f", "json", "a.lst", "-o", "./a.lst"]).run
          (ofFiles [("a.lst", "[END]")] "")) := by
  have hparse : Command.ofArguments ["-f", "json", "a.lst", "-o", "./a.lst"] =
      .ok ⟨"a.lst", .json, some "./a.lst", none, false, 0⟩ := by decide +kernel
  have hplain : Command.Plain Command.ofArguments ["-f", "json", "a.lst", "-o", "./a.lst"] := by
    refine ⟨fun c hc => ?_, by decide +kernel, by decide +kernel⟩
    obtain rfl := Except.ok.inj (hparse.symm.trans hc)
    rfl
  exact ⟨lawful_usual, hplain, by decide +kernel, by decide +kernel,
    Command.performArguments_allOrNothing lawful_usual hplain _⟩

/-- What comes of a run if no path leads to the standard output, and if whatever is printed is
printed to its end. -/
structure Strict (arguments : List String) (w : Workspace) (out : Report × Workspace) : Prop where
  /-- A run that fails prints nothing, and every file is as it was. -/
  failure : out.1.code ≠ 0 → out.1.stdout = "" ∧ view.item? out.2 = view.item? w
  /-- A run that succeeds has read its input and rendered it as it was asked to.  It has printed
  the output, or else it has printed nothing and the output is in its file.  Every other file is as
  it was. -/
  success : out.1.code = 0 → ∃ c text output, Command.ofArguments arguments = .ok c ∧
    (if c.readsStdin then w.stdin else w.get c.input) = .ok text ∧
    (render ⟨c.target, c.keepGoing⟩ text).outcome = .ok output ∧
    match c.output? with
    | none => out.1.stdout = output ∧ view.item? out.2 = view.item? w
    | some path => out.1.stdout = "" ∧ out.2.get path = .ok output ∧
        ∀ place, view.leads? w path ≠ some (.file place) →
          view.item? out.2 place = view.item? w place

/-- A run can print although it has been given a path for its output, and a run that fails can
have printed something. -/
theorem not_strict :
    ¬ Strict ["-f", "json", "a.lst", "-o", "/dev/stdout"] (ofFiles [("a.lst", "[END]")] "")
        (run ["-f", "json", "a.lst", "-o", "/dev/stdout"] (ofFiles [("a.lst", "[END]")] "")) ∧
      ¬ Strict ["-f", "json", "a.lst"] { ofFiles [("a.lst", "[END]")] "" with room? := some 1 }
        (run ["-f", "json", "a.lst"] { ofFiles [("a.lst", "[END]")] "" with room? := some 1 }) := by
  constructor
  · intro h
    have hparse : Command.ofArguments ["-f", "json", "a.lst", "-o", "/dev/stdout"] =
        .ok ⟨"a.lst", .json, some "/dev/stdout", none, false, 0⟩ := by decide +kernel
    obtain ⟨c, text, output, hc, -, -, hdelivered⟩ := h.success (by decide +kernel)
    obtain rfl := Except.ok.inj (hparse.symm.trans hc)
    exact absurd hdelivered.1 (by decide +kernel)
  · intro h
    exact absurd (h.failure (by decide +kernel)).1 (by decide +kernel)

end Workspace
end TensorContraction
