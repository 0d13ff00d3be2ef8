import ToolTree.CommandLine.Help
import ToolTree.Event
import ToolTree.Exit
import ToolTree.Tree.Node

/-!
Running a tree against a line.

`Tree.resolve` says what a line asks for, without calling anything: a call that is checked in
every way, a help text, or an error. `Tree.run` then makes the call, if there is one. So a
function is called at most once for a line, and only after all checks.
-/

namespace ToolTree

open CommandLine (Chain UsageError)

/-! ### Results -/

/-- Why a line is not run to its end. -/
inductive RunError where
  /-- A line that the parser refuses. Only the kind of the error is kept of it, and not its text,
  which tells of the usage of a command. -/
  | usage (cause : UsageError)
  /-- A word that names no command, on a command that does nothing by itself, with the advice
  that stands behind the message. -/
  | unknownCommand (word path advice : String)
  | arity (path : String) (cause : ArityError)
  | missingFlags (path : String) (flags : List String)
  | handler (path text : String)
  deriving DecidableEq, Repr

namespace RunError

/-- The exit code of the program: a request for help or the version is no failure. -/
def exitCode : RunError → Nat
  | .usage .displayHelp => 0
  | .usage (.displayVersion _ _) => 0
  | .usage _ => 2
  | .unknownCommand _ _ _ => 2
  | .arity _ _ => 1
  | .missingFlags _ _ => 1
  | .handler _ _ => 1

/-- What is shown of a word that names no command: the first line of the styled text, which goes
on into the advice where a control sequence hides the end of the message. -/
def unknownCommandLine (word path advice : String) : Option String :=
  let message := s!" unknown command \"{word}\" for \"{path}\"\n"
  (Text.lines (Text.visible (Text.alarm "error:" ++ message ++ advice))).head?

/-- What is said of a version. -/
def versionLine (name version : String) : String :=
  s!"{name} {version}\n"

/-- The text of the error, as far as it is kept: of an unknown command its first line, and of a line
that the parser refuses nothing but a version that is asked for. -/
def message? : RunError → Option String
  | .usage (.displayVersion name version) => some (Text.visible (versionLine name version))
  | .usage _ => none
  | .unknownCommand word path advice => unknownCommandLine word path advice
  | .arity path cause => some s!"{path}: {cause.message}"
  | .missingFlags path flags =>
    some <| s!"{path}: required flag(s) " ++
      String.intercalate ", " (flags.map fun flag => s!"\"{flag}\"") ++ " not set"
  | .handler path text => some s!"{path}: {text}"

end RunError

/-- A call of the function that a command is bound to. -/
structure Call where
  binding : Binding
  invocation : Invocation
  words : List String

/-- What a line asks for. -/
inductive Request where
  | call (call : Call)
  | help (text : String)

/-- How a line was run. -/
inductive Outcome where
  | ran
  | help (text : String)
  deriving DecidableEq, Repr

/-- The run of a line: the call that was made, if any, and the result. -/
structure Run where
  call? : Option Call
  result : Except RunError Outcome

/-! ### What a line asks for -/

/-- The node that names lead to, one name for each step down. -/
def Node.follow? (node : Node) : List String → Option Node
  | [] => some node
  | name :: rest =>
    match Keyed.find? name node.children with
    | some child => child.follow? rest
    | none => none

/-- The names of the commands of a chain, the root's apart. -/
def CommandLine.Chain.names (chain : Chain) : List String :=
  chain.levels.tail.map fun level => level.view.grammar.name

/-- Whether the line itself sets a flag, anywhere it may stand. -/
def CommandLine.Chain.isGiven (chain : Chain) (name : String) : Bool :=
  (chain.setting? name).any fun setting => setting.origin == .line

/-- The persistent required flags of a node that the line does not set. -/
def NodeFields.missingFlags (node : NodeFields) (chain : Chain) : List String :=
  node.requiredFlags.filter fun name => !chain.isGiven name

/-- The invocation of a node that a line selects. -/
def NodeFields.invocation (node : NodeFields) (chain : Chain) : Invocation where
  path := node.path
  flags := node.flags
  setting? := chain.setting?

/-- The call of the function that a node is bound to, once the number of words and the required
flags are checked. -/
def NodeFields.request (node : NodeFields) (binding : Binding) (chain : Chain) :
    Except RunError Request := do
  let words := chain.leaf.words
  (node.arity.check words.length).mapError (.arity node.path)
  let missing := node.missingFlags chain
  if missing.isEmpty then
    return .call ⟨binding, node.invocation chain, words⟩
  else .error (.missingFlags node.path missing)

/-- What a line asks for that selects a chain of commands. A command that does nothing by
itself shows its help, unless it has commands below and a word names none of them. -/
def Tree.request (tree : Tree) (chain : Chain) (program? : Option String) :
    Except RunError Request :=
  match tree.root.follow? chain.names with
  | none => .ok (.help "")
  | some node =>
    match node.binding? with
    | some binding => node.request binding chain
    | none =>
      match chain.leaf.words.head?.filter fun _ => !node.children.isEmpty with
      | some word => .error (.unknownCommand word node.path (chain.advice program?))
      | none => .ok (.help (chain.help program?))

/-- What a line asks for, the program's name first. -/
def Tree.resolve (tree : Tree) (argv : List String) : Except RunError Request := do
  let chain ← (tree.grammar.parse argv).mapError .usage
  tree.request chain argv.head?

/-! ### Running -/

namespace Call

/-- Makes the call. -/
def result (call : Call) : Except RunError Outcome :=
  match call.binding.handler.call call.invocation call.words with
  | .ok () => .ok .ran
  | .error text => .error (.handler call.invocation.path text)

/-- The event that a call is about to be made. -/
def event (call : Call) : Event where
  level := .debug
  message := "Dispatching"
  fields := [("path", .shown call.invocation.path), ("args", .number call.words.length)]

end Call

/-- Runs a line, the program's name first. -/
def Tree.run (tree : Tree) (argv : List String) : Run :=
  match tree.resolve argv with
  | .error e => ⟨none, .error e⟩
  | .ok (.help text) => ⟨none, .ok (.help text)⟩
  | .ok (.call call) => ⟨some call, call.result⟩

/-- How a program ends that runs a line and nothing else. A refused line is told of on the
standard error output, but a request for the version is answered on the standard output, which
is a stream. -/
def Run.exit (run : Run) : Exit :=
  match run.result with
  | .ok .ran => {}
  | .ok (.help text) => { stdout := text }
  | .error e =>
    let text := e.message?.getD ""
    match e with
    | .usage (.displayVersion name version) =>
      { stdout := Text.streamed (RunError.versionLine name version) }
    | .usage .displayHelp => {}
    | .usage _ => { Exit.failure "unexpected or missing arguments" with code := e.exitCode }
    | .unknownCommand _ _ _ => { code := e.exitCode, stderr := text ++ "\n" }
    | _ => .failure text

/-- What is reported while a line is run. -/
def Run.events (run : Run) : List Event :=
  run.call?.toList.map Call.event

end ToolTree
