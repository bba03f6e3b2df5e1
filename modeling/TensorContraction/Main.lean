import TensorContraction.Command.Run

/-!
# The program

Renders an export from the command line.  What happens is decided by `Command`; here
are only the files of a machine.
-/

namespace TensorContraction.Machine

/-- The reason behind an error of the system with a code of its own, which some calls give
with the sign changed. -/
def reason (code : UInt32) (details : String) : AccessError :=
  match if code < 0x80000000 then code else -code with
  | 2 => .missing
  | 17 => .occupied
  | 20 => .notDirectory
  | 21 => .isDirectory
  | 28 => .full
  | 36 => .tooLong
  | code => .other (details ++ " (os error " ++ toString code ++ ")")

/-- The reason behind an error of the system. -/
def accessError : IO.Error → AccessError
  | .noFileOrDirectory _ code details
  | .inappropriateType _ code details
  | .alreadyExists _ code details
  | .invalidArgument _ code details
  | .resourceExhausted _ code details
  | .permissionDenied _ code details => reason code details
  | e => .other (toString e)

/-- Runs an action on a file. -/
def access {α : Type} (action : IO α) : IO (Except AccessError α) := do
  match ← action.toBaseIO with
  | .ok a => return .ok a
  | .error e => return .error (accessError e)

/-- Reads a text. -/
def accessText (action : IO ByteArray) : IO (Except AccessError String) :=
  return (← access action).bind textOfBytes

/-- Whether a path leads to a directory.  A directory holds itself under the name of the step
that stays, so it is refused as already there, and nothing is ever made. -/
def isDirectory (path : String) : IO Bool :=
  return (← access (IO.FS.createDir (path ++ "/."))) matches .error .occupied

/-- Writes a text to a stream, to the end. -/
def write (stream : IO.FS.Stream) (text : String) : IO Unit := do
  stream.putStr text
  stream.flush

/-- The files of a machine. -/
def files : Files IO where
  stdin := accessText do (← IO.getStdin).readBinToEnd
  get path := accessText (IO.FS.readBinFile path)
  put path text := access <| IO.FS.withFile path .write fun h => write (.ofHandle h) text
  print text := access do write (← IO.getStdout) text
  isDirectory := isDirectory
  makeDirectory path := access (IO.FS.createDir path)

/-- Says what a run has to say. -/
def tell (closing : Closing) : IO UInt32 := do
  (← IO.getStderr).putStr closing.stderr
  return closing.code.toUInt32

end TensorContraction.Machine

open TensorContraction in
/-- Runs the program. -/
def main (arguments : List String) : IO UInt32 := do
  Machine.tell (← Command.performArguments (.usual Machine.files) arguments)
