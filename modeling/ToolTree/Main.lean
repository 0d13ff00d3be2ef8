import ToolTree.Cli.Program

/-!
The program `cmdtree` on the files of the machine.
-/

namespace ToolTree

open Files (OsError Path Storage)

/-- What the system says of a refusal. -/
def osError : IO.Error → OsError
  | .noFileOrDirectory .. => .noEntry
  | .alreadyExists .. => .exists
  | .inappropriateType _ 21 _ => .isDirectory
  | .inappropriateType _ _ _ => .notDirectory
  | .permissionDenied _ code _ => .other code.toNat
  | .invalidArgument _ 36 _ => .nameTooLong
  | .invalidArgument _ code _ => .other code.toNat
  | .otherError code _ => .other code.toNat
  | _ => .other 5

/-- An action with its refusal as a value. -/
def attempt {α : Type} (action : IO α) : IO (Except OsError α) := do
  match ← action.toBaseIO with
  | .ok a => return .ok a
  | .error e => return .error (osError e)

/-- An action on a path that the system admits. -/
def attemptOn {α : Type} (path : Path) (action : String → IO α) : IO (Except OsError α) := do
  match path.admit with
  | .error e => return .error e
  | .ok () => attempt (action path.text)

/-- Opens a file and reads it; a file that is no text is opened in vain. -/
def readOpened (path : Path) : IO (Except OsError (Option String)) := do
  match ← attemptOn path fun text => IO.FS.Handle.mk text .read with
  | .error e => return .error e
  | .ok handle => return .ok (← attempt handle.readToEnd).toOption

instance : Storage IO where
  readText := readOpened
  pathExists path := return (← attemptOn path fun text => IO.FS.realPath text).isOk
  isDirectory path := return (← attemptOn path fun text => IO.FS.realPath (text ++ "/.")).isOk
  makeDirectory path := attemptOn path fun text => IO.FS.createDir text
  writeText path content := attemptOn path fun text => IO.FS.writeFile text content
  resolve path := attemptOn path fun text => return (← IO.FS.realPath text).toString

end ToolTree

/-- Runs the program. -/
def main (args : List String) : IO UInt32 := do
  let exit ← (ToolTree.Cli.run args : IO ToolTree.Exit)
  IO.print exit.stdout
  IO.eprint exit.stderr
  return exit.code.toUInt32
