import TensorContraction.Command.Arguments
import TensorContraction.Command.Workspace
import TensorContraction.Export.Rendering

/-!
# Running a command

A run reads its input, renders it and delivers what comes out: to a file, or else it is printed.
No output is delivered unless everything before has succeeded.  What is said about a run goes to
the error stream: the events that are to be shown, and then, if the run fails, what it was doing
and why that failed.

How files are reached is left open, so that one run serves a workspace, where it is a
function, and the files of a machine.  Left open are also how arguments are read and what
keeps the log.  As a rule a run that logs first makes sure that the directory of its log is there,
and makes it if need be; the log itself is only written when there is something to say.

## Main definitions

* `Failure`, `Failure.report` — why a run fails.
* `Files`, `Files.ensure` — how a run reaches files, and how it makes directories.
* `Surroundings`, `Surroundings.usual` — all that a run needs from outside.
* `Command.render` — the output of a command on an input, with its events.
* `Command.deliver` — what is done with an output.
* `Command.perform`, `Command.performArguments` — a run.
* `Workspace.run` — a run on a workspace.
-/

namespace TensorContraction

/-! ### Failures -/

/-- Why a log cannot be written. -/
inductive LogError where
  /-- The path of the log names a directory. -/
  | directory
  /-- The directory of the log is not there and cannot be made. -/
  | unreachable (why : AccessError)
  /-- Some other reason, in the words of what keeps the log. -/
  | other (message : String)
  deriving DecidableEq, Repr

/-- Why a run fails. -/
inductive Failure where
  /-- The log cannot be written. -/
  | log (why : LogError)
  /-- The standard input cannot be read. -/
  | stdin (why : AccessError)
  /-- The input cannot be read. -/
  | input (path : String) (why : AccessError)
  /-- The input cannot be rendered. -/
  | rendering (path : String) (why : RenderError)
  /-- The output cannot be written. -/
  | output (path : String) (why : AccessError)
  /-- The output cannot be printed. -/
  | stdout (why : AccessError)
  deriving DecidableEq, Repr

/-- The sentences for what is wrong with an export, from the outside in. -/
def RenderError.causes : RenderError → List String
  | unreadable e => [e.message]
  | rejected r => [r.message, r.violation.message]

namespace Failure

/-- What was being done, or what is wrong if nothing else is. -/
def context : Failure → String
  | log .directory => "Log file cannot be written because the specified path is a directory"
  | log (.unreachable _) =>
    "Log cannot be written, e.g. because the configured output directory is not accessible"
  | log (.other message) => message
  | stdin _ => "failed to read export from stdin"
  | input path _ => "failed to read " ++ path
  | rendering path _ => "failed to translate " ++ path
  | output path _ => "failed to write " ++ path
  | stdout _ => "failed to write to stdout"

/-- Why it failed, from the outside in. -/
def causes : Failure → List String
  | log .directory | log (.other _) => []
  | log (.unreachable why) => [why.message]
  | stdin why => [why.message]
  | input _ why => [why.message]
  | rendering _ why => why.causes
  | output _ why => [why.message]
  | stdout why => [why.message]

/-- The lines for some causes; several are numbered. -/
def causeLines : List String → List String
  | [cause] => ["    " ++ cause]
  | causes => causes.zipIdx.map fun (cause, i) => "    " ++ toString i ++ ": " ++ cause

/-- The report of a failure. -/
def report (f : Failure) : String :=
  String.join ((("Error: " ++ f.context)
    :: (if f.causes.isEmpty then [] else "" :: "Caused by:" :: causeLines f.causes)).map
      (· ++ "\n"))

end Failure

/-! ### Commands -/

/-- What a run says in the end. -/
structure Closing where
  /-- The exit code. -/
  code : Nat
  /-- The standard error. -/
  stderr : String
  /-- All events, shown or not. -/
  events : List Event
  deriving DecidableEq, Repr

/-- What is heard of a run. -/
structure Report extends Closing where
  /-- The standard output. -/
  stdout : String
  deriving DecidableEq, Repr

/-- How files are reached, and the streams of a run. -/
structure Files (m : Type → Type) where
  /-- Reads the standard input. -/
  stdin : m (Except AccessError String)
  /-- Reads a file. -/
  get : String → m (Except AccessError String)
  /-- Writes a file. -/
  put : String → String → m (Except AccessError Unit)
  /-- Writes to the standard output. -/
  print : String → m (Except AccessError Unit)
  /-- Whether a path leads to a directory. -/
  isDirectory : String → m Bool
  /-- Makes a directory. -/
  makeDirectory : String → m (Except AccessError Unit)

namespace Files

/-- Makes a directory that may already be there. -/
def settle {m : Type → Type} [Monad m] (files : Files m) (path : String) :
    m (Except AccessError Unit) := do
  match ← files.makeDirectory path with
  | .ok () => return .ok ()
  | .error why => if ← files.isDirectory path then return .ok () else return .error why

/-- Makes the first of some directories, each of which lies in the next, and those it lies
in as far as they are missing. -/
def ensure {m : Type → Type} [Monad m] (files : Files m) :
    List String → m (Except AccessError Unit)
  | [] => return .ok ()
  | path :: around => do
    match ← files.settle path with
    | .error .missing =>
      match ← files.ensure around with
      | .ok () => files.settle path
      | .error why => return .error why
    | result => return result

end Files

namespace Command

/-- Whether the input is the standard input. -/
def readsStdin (c : Command) : Bool := Path.components c.input == [['-']]

/-- Whether an event matters enough to be told.  Warnings always do. -/
def tells (c : Command) (e : Event) : Bool :=
  match e.level with
  | .warning => true
  | .info => 1 ≤ c.verbosity
  | .debug => 2 ≤ c.verbosity

/-- Whether an event is shown on the error stream.  With a log only warnings are. -/
def shows (c : Command) (e : Event) : Bool :=
  c.tells e && (c.logFile?.isNone || e.level = .warning)

/-- The output of a command on an input that has been read. -/
def render (c : Command) (text : String) : Journal Failure String := do
  Journal.note (.started c.input c.target)
  (TensorContraction.render ⟨c.target, c.keepGoing⟩ text).mapError (.rendering c.input)

/-- What is shown of some events. -/
def shown (c : Command) (events : List Event) : String :=
  String.join ((events.filter c.shows).map Event.line)

/-- What a run says that fails after some events. -/
def failed (c : Command) (events : List Event) (f : Failure) : Closing :=
  ⟨1, c.shown events ++ f.report, events⟩

/-- What a run says that succeeds with some events. -/
def succeeded (c : Command) (events : List Event) : Closing := ⟨0, c.shown events, events⟩

/-- Reads the input of a command. -/
def readInput {m : Type → Type} [Monad m] (files : Files m) (c : Command) :
    m (Except Failure String) := do
  if c.readsStdin then return (← files.stdin).mapError .stdin
  else return (← files.get c.input).mapError (.input c.input)

/-- Delivers the output of a command. -/
def deliver {m : Type → Type} [Monad m] (files : Files m) (c : Command) (output : String) :
    m (Except Failure Unit) := do
  match c.output? with
  | none => return (← files.print output).mapError .stdout
  | some path => return (← files.put path output).mapError (.output path)

/-! ### Logs -/

/-- Makes room for the log of a command, if it has one. -/
def prepareLog {m : Type → Type} [Monad m] (files : Files m) (c : Command) :
    m (Except LogError Unit) := do
  match c.logFile? with
  | none => return .ok ()
  | some path =>
    if ← files.isDirectory path then return .error .directory
    match Path.holder? path with
    | none => return .error (.unreachable .missing)
    | some holder => return (← files.ensure (Path.lineage holder)).mapError .unreachable

/-- Writes what a command tells into its log, if it has one and anything is told. -/
def writeLog {m : Type → Type} [Monad m] (files : Files m) (c : Command)
    (events : List Event) : m Unit := do
  match c.logFile?, events.filter c.tells with
  | some path, told@(_ :: _) =>
    let _ ← files.put (Path.ofComponents (Path.components path))
      (String.join (told.map Event.line))
  | _, _ => return ()

end Command

/-- All that a run needs from outside. -/
structure Surroundings (m : Type → Type) extends Files m where
  /-- Reads the arguments. -/
  parse : List String → Except Command.Interruption Command
  /-- Gets the log of a command ready. -/
  startLog : Command → m (Except LogError Unit)
  /-- Logs events of a command. -/
  log : Command → List Event → m Unit

/-- The usual surroundings where there are some files. -/
def Surroundings.usual {m : Type → Type} [Monad m] (files : Files m) : Surroundings m where
  toFiles := files
  parse := Command.ofArguments
  startLog := Command.prepareLog files
  log := Command.writeLog files

namespace Command

/-! ### Runs -/

/-- Runs a command whose log is ready. -/
def performReady {m : Type → Type} [Monad m] (around : Surroundings m) (c : Command) :
    m Closing := do
  match ← c.readInput around.toFiles with
  | .error f => return c.failed [] f
  | .ok text =>
    let journal := c.render text
    around.log c journal.events
    match journal.outcome with
    | .error f => return c.failed journal.events f
    | .ok output =>
      match ← c.deliver around.toFiles output with
      | .error f => return c.failed journal.events f
      | .ok () => return c.succeeded journal.events

/-- Runs a command. -/
def perform {m : Type → Type} [Monad m] (around : Surroundings m) (c : Command) : m Closing := do
  match ← around.startLog c with
  | .error why => return c.failed [] (.log why)
  | .ok () => c.performReady around

/-! ### Whole programs -/

/-- The line that says how to call the program. -/
def usage : String :=
  "Usage: [-k] [-v] [-f tex|sequant|json] [-o FILE] [--log-file FILE] INPUT\n"

/-- Answers a question, as well as that can be done. -/
def answer {m : Type → Type} [Monad m] (files : Files m) (text : String) : m Closing := do
  let _ ← files.print text
  return ⟨0, "", []⟩

/-- What is done without a command: a question is answered, or there is a complaint about the
arguments. -/
def interrupted {m : Type → Type} [Monad m] (files : Files m) : Interruption → m Closing
  | .help => answer files usage
  | .version => answer files "0.1.0\n"
  | .usage => return ⟨2, usage, []⟩

/-- Runs whatever some arguments ask for. -/
def performArguments {m : Type → Type} [Monad m] (around : Surroundings m)
    (arguments : List String) : m Closing :=
  match around.parse arguments with
  | .ok c => c.perform around
  | .error i => interrupted around.toFiles i

end Command

namespace Workspace

/-- The files of a workspace. -/
def access : Files (StateM Workspace) where
  stdin := return (← StateT.get).stdin
  get path := return (← StateT.get).get path
  put path text := StateT.modifyGet (·.put path text)
  print text := StateT.modifyGet (·.print text)
  isDirectory path := return (← StateT.get).isDirectory path
  makeDirectory path := StateT.modifyGet (·.makeDirectory path)

/-- Runs whatever some arguments ask for, on a workspace. -/
def run (arguments : List String) (w : Workspace) : Report × Workspace :=
  let (closing, w') := (Command.performArguments (.usual access) arguments).run w
  (⟨{ closing with stderr := closing.stderr ++ w'.complaints }, w'.printed⟩, w')

end Workspace
end TensorContraction
