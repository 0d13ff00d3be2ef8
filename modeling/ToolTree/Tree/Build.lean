import ToolTree.Decl.Problem
import ToolTree.Decl.Site
import ToolTree.Event
import ToolTree.Text.Decimal
import ToolTree.Tree.Scope

/-!
Building a tree from a declaration and a registry.

The declaration has to be valid. Then each command is built before those below it: its rule on
words, its flags in order, the function it is bound to, and the aliases of the commands below.
The first violation ends the building, so there is never half a tree.
-/

namespace ToolTree

open CommandLine (Argument FlagType Grammar Head)

/-! ### Errors -/

/-- Why a tree cannot be built. A path names the command at fault. -/
inductive BuildError where
  | invalid (problems : List Problem)
  | functionNotRegistered (path name : String)
  | signatureMismatch (path name : String) (arity : Arity)
  | invalidDefault (path flag : String) (kind : FlagKind) (value : String)
  | unsupportedFlagType (path flag : String) (cause : UnknownFlagKind)
  | invalidArgs (path : String) (cause : RuleError)
  | invalidShorthand (path flag shorthand : String)
  | flagConflict (path flag existing : String)
  | flagNotFound (path flag : String)
  | duplicateAlias (path word : String)
  deriving DecidableEq, Repr

namespace BuildError

/-- The text of the error. -/
def message : BuildError → String
  | .invalid problems => Problem.report problems
  | .functionNotRegistered path name => s!"command \"{path}\": function {name} not registered"
  | .signatureMismatch path name arity =>
    s!"command \"{path}\": function {name} is registered as an action and takes no arguments" ++
      s!" ({arity.describe})"
  | .invalidDefault path flag kind value =>
    s!"command \"{path}\": invalid {kind.spelling} default value {Text.quote value} for flag {flag}"
  | .unsupportedFlagType path flag cause =>
    s!"command \"{path}\": flag {flag}: {cause.message}"
  | .invalidArgs path cause => s!"command \"{path}\": {cause.message}"
  | .invalidShorthand path flag shorthand =>
    s!"command \"{path}\": flag {flag}: shorthand {Text.quote shorthand}" ++
      " must be a single character"
  | .flagConflict path flag existing =>
    s!"command \"{path}\": flag {flag} conflicts with {existing}"
  | .flagNotFound path flag => s!"command \"{path}\": cannot mark unknown flag {flag}"
  | .duplicateAlias path word =>
    s!"command \"{path}\": alias {Text.quote word} is already used by a sibling command"

end BuildError

/-! ### Flags -/

/-- The short form of a flag. -/
def FlagDecl.short? (flag : FlagDecl) (path : String) : Except BuildError (Option Char) :=
  if flag.shorthand = "" then .ok none
  else
    match flag.shortChar? with
    | some short => .ok (some short)
    | none => .error (.invalidShorthand path flag.name flag.shorthand)

/-- The value type of a flag with its default. A list starts empty whatever default is written,
and a bool flag is true only for the text `true`. -/
def FlagDecl.flagType (flag : FlagDecl) (kind : FlagKind) (path : String) :
    Except BuildError FlagType :=
  match kind with
  | .string => .ok (.string (if flag.defaultText = "" then none else some flag.defaultText))
  | .bool => .ok (.bool (flag.defaultText == "true"))
  | .int =>
    if flag.defaultText = "" then .ok (.int none)
    else
      match Text.integer? flag.defaultText with
      | some n => .ok (.int (some n))
      | none => .error (.invalidDefault path flag.name kind flag.defaultText)
  | .stringSlice => .ok .stringSlice

/-- The scopes of a command while its flags are taken: what it sees itself and what the
commands below it will see, with the arguments of the flags so far. -/
structure Flags where
  visible : Scope
  inheritable : Scope
  arguments : List Argument := []
  deriving Repr

namespace Flags

/-- The argument of a flag before it is marked as required or hidden. -/
def unmarked (flag : FlagDecl) (type : FlagType) (short? : Option Char) (rank : Nat) : Argument where
  name := flag.name
  short?
  summary := flag.usage
  role := .flag type
  persistent := flag.persistent
  rank

/-- The argument of a flag. A required flag that is persistent is asked for only when a command
is run, since it may stand before or after the name of a command below. -/
def argument (flag : FlagDecl) (type : FlagType) (short? : Option Char) (rank : Nat) : Argument where
  name := flag.name
  short?
  summary := flag.usage
  role := .flag type
  required := flag.required && !flag.persistent
  hidden := flag.hidden
  persistent := flag.persistent
  rank

/-- The arguments with a change to the last one of a name, if there is one. -/
def changeLast? (name : String) (change : Argument → Argument) :
    List Argument → Option (List Argument)
  | [] => none
  | arg :: rest =>
    match changeLast? name change rest with
    | some rest => some (arg :: rest)
    | none => if arg.name = name then some (change arg :: rest) else none

/-- Changes the argument of a flag, which has to be among those that were added. -/
def mark (path name : String) (change : Argument → Argument) (arguments : List Argument) :
    Except BuildError (List Argument) :=
  match changeLast? name change arguments with
  | some arguments => .ok arguments
  | none => .error (.flagNotFound path name)

/-- Marks the argument of a flag as the flag is declared. -/
def marked (path : String) (flag : FlagDecl) (arguments : List Argument) :
    Except BuildError (List Argument) := do
  let arguments ←
    if flag.required && !flag.persistent then
      mark path flag.name (fun arg => { arg with required := true }) arguments
    else .ok arguments
  if flag.hidden then mark path flag.name (fun arg => { arg with hidden := true }) arguments
  else .ok arguments

/-- Takes one more flag. -/
def add (flags : Flags) (path : String) (flag : FlagDecl) : Except BuildError Flags := do
  let kind ← flag.flagKind.mapError (.unsupportedFlagType path flag.name)
  let short? ← flag.short? path
  match flags.visible.conflict? flag.name short? with
  | some existing => .error (.flagConflict path flag.name existing)
  | none => do
    let type ← flag.flagType kind path
    let arguments ← marked path flag
      (flags.arguments ++ [unmarked flag type short? flags.arguments.length])
    return {
      visible := flags.visible.claim flag.name kind short?
      inheritable := flags.inheritable.handDown flag kind short?
      arguments }

/-- Takes the flags of a command that sees a scope from above. -/
def ofDecls (inherited : Scope) (path : String) (decls : List FlagDecl) :
    Except BuildError Flags :=
  decls.foldlM (fun flags flag => flags.add path flag) ⟨inherited, inherited, []⟩

/-- The last argument is changed if it has the name. -/
theorem changeLast?_concat {name : String} (change : Argument → Argument)
    (arguments : List Argument) {arg : Argument} (named : arg.name = name) :
    changeLast? name change (arguments ++ [arg]) = some (arguments ++ [change arg]) := by
  induction arguments with
  | nil => simp [changeLast?, named]
  | cons first rest ih => simp [changeLast?, ih]

/-- The argument of a flag that was just added is found and marked. -/
theorem marked_unmarked (path : String) (flag : FlagDecl) (type : FlagType) (short? : Option Char)
    (rank : Nat) (arguments : List Argument) :
    marked path flag (arguments ++ [unmarked flag type short? rank]) =
      .ok (arguments ++ [argument flag type short? rank]) := by
  unfold marked mark
  cases required : flag.required && !flag.persistent <;>
    cases hidden : flag.hidden <;>
      simp [changeLast?_concat, unmarked, argument, required, hidden, Bind.bind, Except.bind]

/-- Taking a flag fails by its type, its short form, a clash or its default. -/
theorem add_eq (flags : Flags) (path : String) (flag : FlagDecl) :
    flags.add path flag = do
      let kind ← flag.flagKind.mapError (.unsupportedFlagType path flag.name)
      let short? ← flag.short? path
      match flags.visible.conflict? flag.name short? with
      | some existing => .error (.flagConflict path flag.name existing)
      | none => do
        let type ← flag.flagType kind path
        return {
          visible := flags.visible.claim flag.name kind short?
          inheritable := flags.inheritable.handDown flag kind short?
          arguments := flags.arguments ++ [argument flag type short? flags.arguments.length] } := by
  simp only [add, marked_unmarked]
  rfl

end Flags

/-! ### Built-in arguments -/

/-- An argument that answers by itself. It gives way to a flag of its name, and its short form
to a flag that has it. -/
def builtin (scope : Scope) (name : String) (short : Char) (summary : String)
    (role : CommandLine.Role) (rank : Nat) : List Argument :=
  if (Keyed.find? name scope.names).isSome then []
  else
    [{ name
       short? := if (scope.owner? short).isSome then none else some short
       summary
       role
       rank }]

/-- The argument that takes the positional words. -/
def wordsArgument (command : CommandFields) (arity : Arity) : Argument :=
  let hint := UseLine.hint command.useLine
  { name := wordsName
    summary := if hint = "" then arity.describe else s!"{hint} ({arity.describe})"
    role := .words
    hidden := arity == .none }

/-- The arguments of a command: its flags, those that show help and the version, and its
words. -/
def commandArguments (command : CommandFields) (arity : Arity) (flags : Flags)
    (versioned : Bool) : List Argument :=
  let help := builtin flags.visible "help" 'h' "Print help" .help flags.arguments.length
  let version :=
    if versioned then
      builtin flags.visible "version" 'V' "Print version" .version
        (flags.arguments.length + help.length)
    else []
  flags.arguments ++ help ++ version ++ [wordsArgument command arity]

/-! ### One command -/

/-- The event that a command is bound to a function. -/
def boundEvent (path : String) (binding : Binding) : Event where
  level := .debug
  message := "Bound handler"
  fields := [("path", .quoted path), ("run_func", .shown binding.name),
    ("shape", .quoted binding.handler.shape)]

/-- The event that a command is built. -/
def builtEvent (node : NodeFields) (flagCount : Nat) : Event where
  level := .debug
  message := "Built command"
  fields := [("path", .shown node.path), ("flags", .number flagCount),
    ("runnable", .bool node.binding?.isSome)]

/-- The function that a command is bound to. An action fits only a command without words. -/
def CommandFields.binding? (command : CommandFields) (registry : Registry) (path : String)
    (arity : Arity) : Except BuildError (Option Binding) :=
  if command.handler = "" then .ok none
  else
    match registry.get? command.handler with
    | none => .error (.functionNotRegistered path command.handler)
    | some handler =>
      if handler.isAction ∧ arity ≠ .none then
        .error (.signatureMismatch path command.handler arity)
      else .ok (some ⟨command.handler, handler⟩)

/-- The canonical names of commands that stand side by side. -/
def siblingNames (commands : List (String × CommandDecl)) : List String :=
  commands.map fun (key, command) => command.nameOr key

/-- The aliases of commands that stand side by side. -/
def siblingAliases (commands : List (String × CommandDecl)) : List String :=
  commands.flatMap fun (_, command) => command.aliases

/-- The first of some aliases that is taken, by one of the names or by an alias before it. -/
def takenAlias? (taken : List String) : List String → Option String
  | [] => none
  | word :: rest =>
    if word ∈ taken then some word else takenAlias? (word :: taken) rest

/-- Refuses commands that stand side by side if an alias of theirs is taken. -/
def checkAliases (path : String) (commands : List (String × CommandDecl)) :
    Except BuildError Unit :=
  match takenAlias? (siblingNames commands) (siblingAliases commands) with
  | some word => .error (.duplicateAlias path word)
  | none => .ok ()

/-- A command that is built but for the commands below it. -/
structure Built where
  head : Head
  node : NodeFields
  inheritable : Scope

/-- What a command is built to but for the commands below it, once its rule on words, its flags
and its function are known. -/
def ownParts (command : CommandFields) (name path : String) (version? : Option String)
    (commands : List (String × CommandDecl)) (arity : Arity) (flags : Flags)
    (binding? : Option Binding) : Built :=
  let hint := UseLine.hint command.useLine
  { head := {
      name
      about := command.summary
      longAbout? := if command.details = "" then none else some command.details
      version?
      aliases := command.aliases
      hidden := command.hidden
      helpCommand :=
        !(siblingNames commands ++ siblingAliases commands).contains CommandLine.helpName
      usage? := if hint = "" then none else some s!"{path} [OPTIONS] {hint}"
      arguments := commandArguments command arity flags version?.isSome }
    node := {
      path
      arity
      binding?
      flags := flags.visible.names
      requiredFlags := flags.inheritable.required }
    inheritable := flags.inheritable }

/-- Builds a command but for the commands below it, whose names and aliases must not clash. -/
def buildOwn (registry : Registry) (command : CommandFields) (name path : String)
    (inherited : Scope) (version? : Option String) (commands : List (String × CommandDecl)) :
    Traced BuildError Built := do
  let arity ← .ofExcept (command.arity.mapError (.invalidArgs path))
  let flags ← .ofExcept (Flags.ofDecls inherited path command.flags)
  let binding? ← .ofExcept (command.binding? registry path arity)
  .reportAll (binding?.toList.map (boundEvent path))
  .ofExcept (checkAliases path commands)
  return ownParts command name path version? commands arity flags binding?

/-! ### Trees -/

/-- A command with the commands below it, each with its name. -/
def Built.assemble (own : Built) (below : List (Grammar × Node)) : Grammar × Node :=
  (⟨own.head, below.map Prod.fst⟩,
    ⟨own.node, below.foldl (fun acc (grammar, node) => Keyed.insert grammar.name node acc) []⟩)

mutual

/-- Builds a command and those below it. -/
def buildCommand (registry : Registry) (inherited : Scope) (name path : String) :
    CommandDecl → Traced BuildError (Grammar × Node)
  | ⟨fields, commands⟩ => do
    let own ← buildOwn registry fields name path inherited none commands
    let below ← buildBelow registry own.inheritable path commands
    .report (builtEvent own.node fields.flags.length)
    return own.assemble below

/-- Builds commands that stand side by side. -/
def buildBelow (registry : Registry) (inherited : Scope) (parent : String) :
    List (String × CommandDecl) → Traced BuildError (List (Grammar × Node))
  | [] => return []
  | (key, command) :: rest => do
    let name := command.nameOr key
    let first ← buildCommand registry inherited name (childPath parent name) command
    return first :: (← buildBelow registry inherited parent rest)

end

/-- The event that a tool is built. -/
def Tree.builtEvent (tool : ToolDecl) (tree : Tree) : Event where
  level := .info
  message := "Built command tree"
  fields := [("tool", .shown tool.name), ("commands", .number tree.root.count)]

/-- Builds the tree of a valid tool. The commands below the root are those of the tool; the
version belongs to the root alone. -/
def ToolDecl.buildValid (tool : ToolDecl) (registry : Registry) : Traced BuildError Tree := do
  let root := tool.root.toCommandFields
  let version? := if tool.version = "" then none else some tool.version
  let own ← buildOwn registry root tool.rootName tool.rootName {} version? tool.commands
  let below ← buildBelow registry own.inheritable tool.rootName tool.commands
  .report (ToolTree.builtEvent own.node root.flags.length)
  let (grammar, node) := own.assemble below
  let tree : Tree := ⟨grammar, node⟩
  .report (tree.builtEvent tool)
  return tree

/-- Builds the tree of a tool. -/
def ToolDecl.build (tool : ToolDecl) (registry : Registry) : Traced BuildError Tree :=
  if tool.problems.isEmpty then tool.buildValid registry
  else .error (.invalid tool.problems)

end ToolTree
