import TensorContraction.Export.Event
import TensorContraction.Text.Cut

/-!
# Arguments

The arguments name one input and may hold switches.  A switch is a word behind two
hyphens or a letter behind one; letters may be joined.  Some switches take a value,
which is the rest of the argument, after an equals sign or directly after a letter, or
the next argument.  A value in an argument of its own must not look like a switch,
but a single hyphen is a value.  After two hyphens alone every argument is an input.

Asking for help or for the version ends the reading of arguments at once; so does the
first mistake.

## Main definitions

* `Command` — what to do.
* `Command.ofArguments` — what a list of arguments asks for.
-/

namespace TensorContraction

/-- What the program is asked to do. -/
structure Command where
  /-- The file to read; a hyphen stands for the standard input. -/
  input : String
  /-- The target to render. -/
  target : Target
  /-- The file to write, if not the standard output. -/
  output? : Option String
  /-- The file to log to, if any. -/
  logFile? : Option String
  /-- Whether contractions that break a rule are passed over. -/
  keepGoing : Bool
  /-- How many further levels of events are shown. -/
  verbosity : Nat
  deriving DecidableEq, Repr, Inhabited

namespace Command

/-! ### Switches -/

/-- A switch without a value. -/
inductive Flag where
  /-- Passes over contractions that break a rule. -/
  | keepGoing
  /-- Shows more events. -/
  | verbose
  /-- Asks how to call the program. -/
  | help
  /-- Asks for the version of the program. -/
  | version
  deriving DecidableEq, Repr, Inhabited

/-- A switch with a value. -/
inductive Setting where
  /-- Chooses the target. -/
  | target
  /-- Names the file to write. -/
  | output
  /-- Names the file to log to. -/
  | logFile
  deriving DecidableEq, Repr, Inhabited

/-- The switch of a letter. -/
def letter? : Char → Option (Flag ⊕ Setting)
  | 'k' => some (.inl .keepGoing)
  | 'v' => some (.inl .verbose)
  | 'h' => some (.inl .help)
  | 'V' => some (.inl .version)
  | 'f' => some (.inr .target)
  | 'o' => some (.inr .output)
  | _ => none

/-- The switch of a word. -/
def word? : String → Option (Flag ⊕ Setting)
  | "keep-going" => some (.inl .keepGoing)
  | "verbose" => some (.inl .verbose)
  | "help" => some (.inl .help)
  | "version" => some (.inl .version)
  | "format" => some (.inr .target)
  | "output" => some (.inr .output)
  | "log-file" => some (.inr .logFile)
  | _ => none

/-! ### Reading -/

/-- Why the reading of arguments ends early. -/
inductive Interruption where
  /-- The arguments are wrong. -/
  | usage
  /-- Help is asked for. -/
  | help
  /-- The version is asked for. -/
  | version
  deriving DecidableEq, Repr, Inhabited

/-- What some arguments have said so far. -/
structure Draft where
  /-- The input. -/
  input? : Option String
  /-- The target. -/
  target? : Option Target
  /-- The file to write. -/
  output? : Option String
  /-- The file to log to. -/
  logFile? : Option String
  /-- Whether contractions that break a rule are passed over. -/
  keepGoing : Bool
  /-- How often more events were asked for. -/
  verbosity : Nat
  /-- The switch whose value comes next. -/
  pending? : Option Setting
  /-- Whether only inputs may follow. -/
  inputsOnly : Bool
  deriving DecidableEq, Repr

namespace Draft

instance : Inhabited Draft := ⟨⟨none, none, none, none, false, 0, none, false⟩⟩

/-- Names the input; there may be one only, and it has to have a name. -/
def addInput (d : Draft) (name : String) : Except Interruption Draft :=
  if d.input?.isSome || name.isEmpty then .error .usage
  else .ok { d with input? := some name }

/-- Turns a flag on.  Only the one for more events may be repeated. -/
def raise (d : Draft) : Flag → Except Interruption Draft
  | .keepGoing => if d.keepGoing then .error .usage else .ok { d with keepGoing := true }
  | .verbose => .ok { d with verbosity := d.verbosity + 1 }
  | .help => .error .help
  | .version => .error .version

/-- Gives a setting its value, which no setting may have twice. -/
def set (d : Draft) (setting : Setting) (value : String) : Except Interruption Draft :=
  let d := { d with pending? := none }
  match setting with
  | .target =>
    match d.target?, Target.ofWord? value with
    | none, some t => .ok { d with target? := some t }
    | _, _ => .error .usage
  | .output =>
    if d.output?.isSome || value.isEmpty then .error .usage
    else .ok { d with output? := some value }
  | .logFile =>
    if d.logFile?.isSome || value.isEmpty then .error .usage
    else .ok { d with logFile? := some value }

/-- Reads joined letters. -/
def letters (d : Draft) : List Char → Except Interruption Draft
  | [] => .ok d
  | c :: cs =>
    match letter? c, cs with
    | none, _ => .error .usage
    | some (.inl flag), _ => do letters (← d.raise flag) cs
    | some (.inr setting), [] => .ok { d with pending? := some setting }
    | some (.inr setting), '=' :: value => d.set setting (String.ofList value)
    | some (.inr setting), value => d.set setting (String.ofList value)

/-- Reads a word, with its value if it has one. -/
def word (d : Draft) (cs : List Char) : Except Interruption Draft :=
  let (name, value?) := match Text.cut? (· == '=') cs with
    | none => (cs, none)
    | some (name, value) => (name, some (String.ofList value))
  match word? (String.ofList name), value? with
  | some (.inl flag), none => d.raise flag
  | some (.inr setting), none => .ok { d with pending? := some setting }
  | some (.inr setting), some value => d.set setting value
  | _, _ => .error .usage

/-- Reads one argument. -/
def step (d : Draft) (argument : String) : Except Interruption Draft :=
  if d.inputsOnly then d.addInput argument
  else
    match argument.toList, d.pending? with
    | '-' :: _ :: _, some _ => .error .usage
    | '-' :: '-' :: [], none => .ok { d with inputsOnly := true }
    | '-' :: '-' :: cs, none => d.word cs
    | '-' :: c :: cs, none => d.letters (c :: cs)
    | _, some setting => d.set setting argument
    | _, none => d.addInput argument

/-- The command of a finished draft. -/
def finish (d : Draft) : Except Interruption Command :=
  match d.input?, d.pending? with
  | some input, none =>
    .ok { input, target := d.target?.getD .tex, output? := d.output?, logFile? := d.logFile?,
          keepGoing := d.keepGoing, verbosity := d.verbosity }
  | _, _ => .error .usage

end Draft

/-- What a list of arguments asks for. -/
def ofArguments (arguments : List String) : Except Interruption Command := do
  (← arguments.foldlM Draft.step default).finish

end Command
end TensorContraction
