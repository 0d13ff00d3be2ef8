import ToolTree.Decl.Reading
import ToolTree.Event
import ToolTree.Files.FileTree

/-!
Programs that use files, whatever holds them.

`Storage` lists what a program may do with files. A tree of files with a location from which
paths are followed is one instance, on which statements about programs are made; the file
system of the machine is another. Loading a declaration and writing an output are built from
these steps alone.
-/

namespace ToolTree.Files

/-- What a program may do with files. -/
class Storage (m : Type → Type) where
  /-- The text of a file, or nothing if it can be opened but not read as text. -/
  readText : Path → m (Except OsError (Option String))
  pathExists : Path → m Bool
  isDirectory : Path → m Bool
  makeDirectory : Path → m (Except OsError Unit)
  writeText : Path → String → m (Except OsError Unit)
  /-- The full path, without steps that lead nowhere or back. -/
  resolve : Path → m (Except OsError String)

/-! ### Trees of files as storage -/

/-- A tree of files with the location from which paths are followed. -/
structure Workspace where
  tree : FileTree := {}
  here : Location := []
  deriving DecidableEq, Repr

/-- Changes the tree of a workspace, unless that is refused. -/
def Workspace.update (change : FileTree → Location → Except OsError FileTree) :
    StateM Workspace (Except OsError Unit) := fun workspace =>
  match change workspace.tree workspace.here with
  | .ok tree => (.ok (), { workspace with tree })
  | .error e => (.error e, workspace)

instance : Storage (StateM Workspace) where
  readText path := fun w => (w.tree.readText w.here path, w)
  pathExists path := fun w => (w.tree.pathExists w.here path, w)
  isDirectory path := fun w => (w.tree.isDirectory w.here path, w)
  makeDirectory path := Workspace.update fun tree here => tree.makeDirectory here path
  writeText path text := Workspace.update fun tree here => tree.writeText here path text
  resolve path := fun w => (w.tree.resolve w.here path, w)

/-! ### Writing outputs -/

variable {m : Type → Type} [Monad m] [Storage m]

/-- Makes a directory, unless it is there. -/
def ensureDirectory (path : Path) : m (Except OsError Unit) := do
  match ← Storage.makeDirectory path with
  | .ok () => return .ok ()
  | .error e => if ← Storage.isDirectory path then return .ok () else return .error e

/-- Makes a directory and those above it that are missing. The empty path needs none. -/
def makeDirectories (path : Path) : m (Except OsError Unit) := do
  if path.text = "" then return .ok ()
  else
    match ← Storage.makeDirectory path with
    | .ok () => return .ok ()
    | .error .noEntry =>
      match _h : path.parent? with
      | none => return .error .noEntry
      | some parent =>
        match ← makeDirectories parent with
        | .error e => return .error e
        | .ok () => ensureDirectory path
    | .error e => if ← Storage.isDirectory path then return .ok () else return .error e
termination_by path.size
decreasing_by exact Path.size_parent?_lt _h

/-- An output that could not be written. -/
structure WriteError where
  path : Path
  cause : OsError
  deriving DecidableEq, Repr

/-- The text of the error. -/
def WriteError.message (e : WriteError) : String :=
  s!"failed to write {e.path.text}: {e.cause.message}"

/-- Writes a text to a path, in place of what was there. Missing directories above it are
made. -/
def writeOutput (path : Path) (text : String) : m (Except WriteError Unit) := do
  let made ← match path.parent? with
    | none => pure (.ok ())
    | some parent => makeDirectories parent
  match made with
  | .error cause => return .error ⟨path, cause⟩
  | .ok () => return (← Storage.writeText path text).mapError fun cause => ⟨path, cause⟩

/-- The event that a text was written to a path. -/
def writtenEvent (path : Path) (text : String) : Event where
  level := .info
  message := "Wrote output"
  fields := [("path", .shown path.text), ("bytes", .number text.utf8ByteSize)]

/-! ### Loading declarations -/

/-- Why a declaration cannot be loaded from a file. -/
inductive LoadError where
  | unreadable (path : Path) (cause : OsError)
  | malformed (path : Path)
  | invalid (problems : List Problem)
  deriving DecidableEq, Repr

/-- The text of the error. -/
def LoadError.message : LoadError → String
  | .unreadable path cause => s!"failed to read config file {path.text}: {cause.message}"
  | .malformed path => s!"failed to parse config file {path.text}"
  | .invalid problems => Problem.report problems

/-- The valid tool that a file with a text declares. -/
def loadText (path : Path) (text : String) : Except LoadError ToolDecl :=
  match ToolDecl.ofYaml text with
  | .ok tool => .ok tool
  | .error .malformed => .error (.malformed path)
  | .error (.invalid problems) => .error (.invalid problems)

/-- Loads the tool that a file declares. -/
def load (path : Path) : m (Except LoadError ToolDecl) := do
  match ← Storage.readText path with
  | .error cause => return .error (.unreadable path cause)
  | .ok none => return .error (.malformed path)
  | .ok (some text) => return loadText path text

/-- The event that a tool was loaded from a path. -/
def loadedEvent (path : Path) (tool : ToolDecl) : Event where
  level := .debug
  message := "Loaded tool config"
  fields := [("path", .shown path.text), ("commands", .number tool.commands.length)]

end ToolTree.Files
