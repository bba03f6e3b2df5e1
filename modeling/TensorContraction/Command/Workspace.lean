import TensorContraction.Command.Path

/-!
# Workspaces

The files a program works on lie in a workspace, a directory, or in directories around or
below it.  Reading or writing a file either succeeds or fails without a trace.  A file holds
bytes; what is read and written is text, and bytes that spell none cannot be read.

What is printed goes to the standard output, which may come to its end in the middle of a text.
Then the beginning of the text has been printed although printing fails.

A path is walked step by step: every step but the last has to lead to a directory, so
that `missing/..` leads nowhere although `..` does.  Names have a greatest length, and so
have paths.

Little is known about the machine that a workspace stands on: its usual directories, and some of
its devices.  Writing to a device stores nothing.  What is written to the one that stands for the
standard output is printed, and that for the standard error has its own stream; one takes
everything and one, being full, nothing.

## Main definitions

* `AccessError` — why a path cannot be read or written.
* `textOfBytes` — the text that bytes spell.
* `Place`, `Device` — a place in a tree of directories, and what may be there on every machine.
* `Workspace`, `Workspace.ofFiles` — files by place, and the streams of a run.
* `Workspace.print` — printing.
* `Workspace.get`, `Workspace.put`, `Workspace.makeDirectory` — operations by path.
-/

namespace TensorContraction

/-! ### Errors -/

/-- Why a file cannot be read or written. -/
inductive AccessError where
  /-- The path names nothing. -/
  | missing
  /-- The path names something where nothing should be. -/
  | occupied
  /-- The path goes through a file. -/
  | notDirectory
  /-- The path names a directory. -/
  | isDirectory
  /-- There is no space for what is to be written. -/
  | full
  /-- The path or one of its names is too long. -/
  | tooLong
  /-- What is there is no text. -/
  | notText
  /-- Some other reason, in the words of the system. -/
  | other (message : String)
  deriving DecidableEq, Repr, Inhabited

/-- The sentence for an error of access. -/
def AccessError.message : AccessError → String
  | missing => "No such file or directory (os error 2)"
  | occupied => "File exists (os error 17)"
  | notDirectory => "Not a directory (os error 20)"
  | isDirectory => "Is a directory (os error 21)"
  | full => "No space left on device (os error 28)"
  | tooLong => "File name too long (os error 36)"
  | notText => "stream did not contain valid UTF-8"
  | other message => message

/-- The text that some bytes spell. -/
def textOfBytes (bytes : ByteArray) : Except AccessError String :=
  match String.fromUTF8? bytes with
  | some text => .ok text
  | none => .error .notText

/-! ### Places -/

/-- A place in a tree of directories. -/
inductive Place where
  /-- The directory some levels above a workspace; at none, the workspace itself. -/
  | above (levels : Nat)
  /-- The directory around all others. -/
  | root
  /-- What has a name in a directory. -/
  | child (name : String) (holder : Place)
  deriving DecidableEq, Repr, Inhabited

namespace Place

/-- The directory around a place.  Nothing is around the root. -/
def up : Place → Place
  | above levels => above (levels + 1)
  | root => root
  | child _ holder => holder

/-- The place that a step leads to. -/
def step (here : Place) : Step → Place
  | .stay => here
  | .up => here.up
  | .down name => child name here

/-- The place that a path starts from. -/
def start (path : String) : Place := if Path.fromRoot path then root else above 0

/-- The place that a path leads to where every name is a directory. -/
def ofPath (path : String) : Place := (Path.steps path).foldl step (start path)

/-- A place and those around it, as far as they have names. -/
def lineage : Place → List Place
  | child name holder => child name holder :: lineage holder
  | _ => []

/-- The directories with names around a place. -/
def holders (place : Place) : List Place := place.up.lineage

end Place

/-- A device of a machine. -/
inductive Device where
  /-- It takes whatever is written and gives nothing. -/
  | null
  /-- It gives the standard input. -/
  | stdin
  /-- It prints what is written. -/
  | stdout
  /-- It stands for the standard error. -/
  | stderr
  /-- It has no space for anything. -/
  | full
  deriving DecidableEq, Repr, Inhabited

/-- The device with a name. -/
def Device.ofName? : String → Option Device
  | "null" => some null
  | "stdin" => some stdin
  | "stdout" => some stdout
  | "stderr" => some stderr
  | "full" => some full
  | _ => none

/-- The device at a place. -/
def Place.device? : Place → Option Device
  | child name (child "dev" root) => Device.ofName? name
  | _ => none

/-! ### Workspaces -/

/-- A directory of files on a machine, with the streams of a run. -/
structure Workspace where
  /-- The place of each file and what the file holds. -/
  files : List (Place × ByteArray)
  /-- The places of directories, apart from the workspace, those around it and the root. -/
  directories : List Place
  /-- The standard input. -/
  input : ByteArray
  /-- What has been printed. -/
  printed : String
  /-- How many characters can still be printed, if not any number. -/
  room? : Option Nat
  /-- What has been written to the device that stands for the standard error. -/
  complaints : String
  deriving Inhabited

namespace Workspace

/-- The directories that every machine has. -/
def standing : List Place :=
  ["bin", "dev", "etc", "home", "lib", "opt", "proc", "root", "run", "sbin", "sys", "tmp", "usr",
    "var"].map (Place.child · .root)

/-- The workspace with some files of text, given by path, and a text as the standard input.
Anything can be printed. -/
def ofFiles (files : List (String × String)) (stdin : String) : Workspace where
  files := files.map fun (path, text) => (Place.ofPath path, text.toUTF8)
  directories := files.flatMap (fun (path, _) => (Place.ofPath path).holders) ++ standing
  input := stdin.toUTF8
  printed := ""
  room? := none
  complaints := ""

/-- What is at a place. -/
inductive Entry where
  /-- A directory. -/
  | directory
  /-- A file. -/
  | file (content : ByteArray)
  /-- A device. -/
  | device (d : Device)
  deriving Inhabited

/-- What a file holds. -/
def content? (w : Workspace) (place : Place) : Option ByteArray := w.files.lookup place

/-- What is at a place, if there is anything. -/
def entry? (w : Workspace) (place : Place) : Option Entry :=
  match place.device? with
  | some d => some (.device d)
  | none => match w.content? place with
    | some content => some (.file content)
    | none => match place with
      | .child .. => if w.directories.contains place then some .directory else none
      | _ => some .directory

/-! ### Streams and devices -/

/-- Reads the standard input. -/
def stdin (w : Workspace) : Except AccessError String := textOfBytes w.input

/-- Prints a text, or as much of it as can be printed. -/
def print (w : Workspace) (text : String) : Except AccessError Unit × Workspace :=
  match w.room? with
  | none => (.ok (), { w with printed := w.printed ++ text })
  | some room =>
    let part := String.ofList (text.toList.take room)
    (if text.length ≤ room then .ok () else .error .full,
      { w with printed := w.printed ++ part, room? := some (room - text.length) })

/-- What a device gives. -/
def given (w : Workspace) : Device → ByteArray
  | .stdin => w.input
  | _ => .empty

/-- Writes a text to a device. -/
def send (w : Workspace) (text : String) : Device → Except AccessError Unit × Workspace
  | .null | .stdin => (.ok (), w)
  | .stdout => w.print text
  | .stderr => (.ok (), { w with complaints := w.complaints ++ text })
  | .full => (if text.isEmpty then .ok () else .error .full, w)

/-! ### Walking -/

/-- Whether a name is longer than a name can be. -/
def isLongName (name : String) : Bool := 255 < name.utf8ByteSize

/-- Whether a path is longer than a path can be. -/
def isLongPath (path : String) : Bool := 4095 < path.utf8ByteSize

/-- The entry with a name in a directory. -/
def named (w : Workspace) (here : Place) (name : String) : Except AccessError Entry :=
  if isLongName name then .error .tooLong
  else match w.entry? (.child name here) with
    | some entry => .ok entry
    | none => .error .missing

/-- The directory that some steps lead to. -/
def walk (w : Workspace) (here : Place) : List Step → Except AccessError Place
  | [] => .ok here
  | .stay :: later => w.walk here later
  | .up :: later => w.walk here.up later
  | .down name :: later =>
    match w.named here name with
    | .ok .directory => w.walk (.child name here) later
    | .ok _ => .error .notDirectory
    | .error why => .error why

/-- What a path asks for. -/
inductive Goal where
  /-- A directory that is there. -/
  | directory
  /-- What has a name in a directory that is there. -/
  | inside (holder : Place) (name : String)
  deriving DecidableEq, Repr, Inhabited

/-- What a path asks for: only a last step down may lead to something else than a
directory. -/
def goal (w : Workspace) (path : String) : Except AccessError Goal :=
  if isLongPath path then .error .tooLong
  else if path.isEmpty then .error .missing
  else match (Path.steps path).getLast? with
    | some (.down name) =>
      (w.walk (.start path) (Path.steps path).dropLast).map (.inside · name)
    | _ => (w.walk (.start path) (Path.steps path)).map fun _ => .directory

/-! ### Reading and writing -/

/-- Reads a file. -/
def get (w : Workspace) (path : String) : Except AccessError String :=
  match w.goal path with
  | .error why => .error why
  | .ok .directory => .error .isDirectory
  | .ok (.inside holder name) =>
    match w.named holder name with
    | .error why => .error why
    | .ok .directory => .error .isDirectory
    | .ok (.file content) =>
      if Path.endsInSlash path then .error .notDirectory else textOfBytes content
    | .ok (.device d) =>
      if Path.endsInSlash path then .error .notDirectory else textOfBytes (w.given d)

/-- Puts a content into the file at a place, which need not be there. -/
def store (w : Workspace) (place : Place) (content : ByteArray) : Workspace :=
  if (w.content? place).isSome then
    { w with files := w.files.map fun (p, old) => (p, if p = place then content else old) }
  else { w with files := w.files ++ [(place, content)] }

/-- What takes what is written. -/
inductive Outlet where
  /-- The file at a place, which need not be there. -/
  | file (place : Place)
  /-- A device. -/
  | device (d : Device)
  deriving DecidableEq, Repr, Inhabited

/-- What takes that which is written to a path.  A new file needs a directory to lie in.  A path
that ends in a slash can only ask for a directory. -/
def outlet (w : Workspace) (path : String) : Except AccessError Outlet :=
  match w.goal path with
  | .error why => .error why
  | .ok .directory => .error .isDirectory
  | .ok (.inside holder name) =>
    if Path.endsInSlash path then .error .isDirectory
    else match w.named holder name with
      | .ok .directory => .error .isDirectory
      | .ok (.device d) => .ok (.device d)
      | .ok (.file _) | .error .missing => .ok (.file (.child name holder))
      | .error why => .error why

/-- Writes a text to a path. -/
def put (w : Workspace) (path text : String) : Except AccessError Unit × Workspace :=
  match w.outlet path with
  | .error why => (.error why, w)
  | .ok (.file place) => (.ok (), w.store place text.toUTF8)
  | .ok (.device d) => w.send text d

/-- Whether a path leads to a directory. -/
def isDirectory (w : Workspace) (path : String) : Bool :=
  match w.get path with
  | .error .isDirectory => true
  | _ => false

/-- Makes a directory. -/
def makeDirectory (w : Workspace) (path : String) : Except AccessError Unit × Workspace :=
  match w.goal path with
  | .error why => (.error why, w)
  | .ok .directory => (.error .occupied, w)
  | .ok (.inside holder name) =>
    match w.named holder name with
    | .ok _ => (.error .occupied, w)
    | .error .missing => (.ok (), { w with directories := .child name holder :: w.directories })
    | .error why => (.error why, w)

end Workspace
end TensorContraction
