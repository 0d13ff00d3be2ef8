import ToolTree.Cli.Request
import ToolTree.Docs.Markdown
import ToolTree.Docs.Reference
import ToolTree.Docs.Template
import ToolTree.Exit
import ToolTree.Files.Storage
import ToolTree.Source.Entry
import ToolTree.Text.Octets

/-!
The program `cmdtree`: it starts, checks and documents declarations and generates source text
from them.

Each command is written against `Storage`, and ends with an exit code and two texts. Nothing
is written before all texts that are to be written are made.
-/

namespace ToolTree.Cli

open Files (Path Storage load writeOutput)

variable {m : Type → Type} [Monad m] [Storage m]

/-! ### Texts -/

/-- The file that `init` makes. -/
def configName : String :=
  "commands.yaml"

/-- The version of the program. -/
def versionText : String :=
  "cmdtree 0.1.0\n"

/-- What the program can be asked to do. -/
def helpText : String := Text.unlines [
  "Validate, generate and document declarative command trees",
  "",
  "Usage: cmdtree [OPTIONS] <COMMAND>",
  "",
  "Commands:",
  "  init       Create a starter commands.yaml in the current directory",
  "  validate   Load a configuration and report every validation error",
  "  gen        Generate handler stubs and a main.rs from a configuration",
  "  docs       Generate Markdown documentation for a configured tool",
  "  reference  Print the configuration format reference",
  "  help       Print this message or the help of the given subcommand(s)",
  "",
  "Options:",
  "  -v, --verbose  Enable debug logging",
  "  -h, --help     Print help",
  "  -V, --version  Print version"]

/-- What `init` says at its end. -/
def nextSteps : String := Text.unlines [
  s!"Created {configName}",
  "",
  "Next steps:",
  s!"  1. Edit {configName} to define your commands",
  s!"  2. Move it into src/ and run: cmdtree gen src/{configName}",
  "  3. Implement the generated handlers"]

/-- How the program ends when a line asks for nothing to be done. -/
def Stop.exit : Stop → Exit
  | .help => { stdout := helpText }
  | .version => { stdout := versionText }
  | .refused => { code := 2, stderr := "error: unexpected or missing arguments\n\n" ++ helpText }

/-! ### Commands -/

/-- Makes a starter declaration, unless there is one. -/
def runInit (name : String) : m Exit := do
  let path := Path.ofText configName
  if ← Storage.pathExists path then
    return .failure s!"{configName} already exists"
  else
    match ← writeOutput path (Docs.template name) with
    | .error e => return .failure e.message
    | .ok () => return { stdout := nextSteps }

/-- What `validate` says of a valid tool. -/
def summary (tool : ToolDecl) : String :=
  s!"Validated '{tool.name}': {CommandDecl.countAll tool.commands} command(s), " ++
    s!"{tool.handlerSpecs.length} handler(s).\n"

/-- Loads a declaration and counts what is in it. -/
def runValidate (config : String) : m Exit := do
  match ← load (Path.ofText config) with
  | .error e => return .failure e.message
  | .ok tool => return { stdout := summary tool }

/-- The directory that a path stands in. -/
def directoryOf (path : Path) : Path :=
  path.parent?.getD (Path.ofText "")

/-- How an entry point spells a name or a path that the system holds as octets. Where these are not
those of a text, something else is spelled. -/
def spelled (os : List UInt8) : String :=
  Text.lossy os

/-- The full path of a declaration. -/
def fullPath (config : Path) : m (Except String String) := do
  match ← Storage.resolve config with
  | .ok full => return .ok (spelled (Text.octets full))
  | .error e => return .error s!"Failed to resolve '{config.text}': {e.message}"

/-- The declaration as the entry point refers to it: by its name when both stand in the same
directory, else by its full path. -/
def embeddedPath (config main : Path) : m (Except String String) :=
  match config.fileName? with
  | some name =>
    if (directoryOf config).components = (directoryOf main).components then
      return .ok (spelled (Text.octets name))
    else fullPath config
  | none => fullPath config

/-- The two texts that `gen` makes, each with its place. -/
structure Outputs where
  handlersPath : Path
  mainPath : Path
  handlers : String
  main : String
  deriving DecidableEq, Repr

namespace Outputs

/-- The texts for a tool, once it is known how the entry point refers to the declaration. -/
def generate (tool : ToolDecl) (moduleName embedded : String) (handlersPath mainPath : Path) :
    Except GenerateError Outputs := do
  let handlers ← (Source.handlerModule tool moduleName).result
  let main ← (Source.entryPoint tool moduleName embedded).result
  return { handlersPath, mainPath, handlers, main }

/-- Both texts under headings, for a reader instead of for files. -/
def shown (outputs : Outputs) : String := Text.unlines [
  s!"// ===== {outputs.handlersPath.text} =====",
  outputs.handlers,
  s!"// ===== {outputs.mainPath.text} =====",
  outputs.main]

/-- Writes both texts, the handlers first. -/
def write (outputs : Outputs) : m Exit := do
  match ← writeOutput outputs.handlersPath outputs.handlers with
  | .error e => return .failure e.message
  | .ok () =>
    match ← writeOutput outputs.mainPath outputs.main with
    | .error e => return .failure e.message
    | .ok () =>
      return { stdout := Text.unlines [
        s!"Generated {outputs.handlersPath.text}",
        s!"Generated {outputs.mainPath.text}"] }

/-- Writes both texts, or shows them if a file is in the way and may not be replaced. -/
def deliver (outputs : Outputs) (force : Bool) : m Exit := do
  let existing ← [outputs.handlersPath, outputs.mainPath].filterM fun path =>
    Storage.pathExists path
  if existing.isEmpty || force then outputs.write
  else
    return {
      stdout := outputs.shown
      stderr := Text.unlines (existing.map fun path =>
        s!"{path.text} already exists; use --force to overwrite") }

end Outputs

/-- Generates the handlers and the entry point of a tool. -/
def runGen (options : GenOptions) : m Exit := do
  let config := Path.ofText options.config
  match ← load config with
  | .error e => return .failure e.message
  | .ok tool =>
    let handlersPath := match options.output? with
      | some output => Path.ofText output
      | none => (directoryOf config).join s!"{options.moduleName}.rs"
    let mainPath := match options.main? with
      | some main => Path.ofText main
      | none => (directoryOf config).join "main.rs"
    match ← embeddedPath config mainPath with
    | .error message => return .failure message
    | .ok embedded =>
      match Outputs.generate tool options.moduleName embedded handlersPath mainPath with
      | .error e => return .failure e.message
      | .ok outputs => outputs.deliver options.force

/-- Documents a tool, in a file or on the standard output. -/
def runDocs (config : String) (output? : Option String) : m Exit := do
  match ← load (Path.ofText config) with
  | .error e => return .failure e.message
  | .ok tool =>
    let text := Docs.markdown tool
    match output? with
    | none => return { stdout := text }
    | some output =>
      match ← writeOutput (Path.ofText output) text with
      | .error e => return .failure e.message
      | .ok () => return { stdout := s!"Wrote {(Path.ofText output).text}\n" }

/-- All of the reference. -/
def referenceText : String :=
  Text.unlines [
    "## Quick Start\n",
    Docs.quickStart,
    "## Code Generation\n",
    Docs.generationReference,
    "## YAML Configuration Reference\n"] ++ Docs.formatReference

/-- Does what is asked for. -/
def Request.run : Request → m Exit
  | .init name => runInit name
  | .validate config => runValidate config
  | .gen options => runGen options
  | .docs config output? => runDocs config output?
  | .reference => return { stdout := referenceText }

/-- Runs the program on a line, without the program's name. -/
def run (tokens : List String) : m Exit :=
  match Request.ofLine tokens with
  | .error stop => return stop.exit
  | .ok request => request.run

end ToolTree.Cli
