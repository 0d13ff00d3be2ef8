import ToolTree.CommandLine.Setting

/-!
Reading a line against a grammar.

A line is read from left to right. A token that selects a command below hands the rest of the
line to that command; all other tokens change the `Progress` of the command that is being
read. A flag whose value is a token of its own is recorded late: when the next flag or word of
the same command comes, or after everything, the commands below included.

`Grammar.parse` gives the chain of commands that a line selects, each with its settings and its
words. It recurs on the tokens, so every line is read to its end or refused.
-/

namespace ToolTree.CommandLine

/-! ### The forms of a token -/

/-- Whether the characters after a dash can be read as a number: digits, then perhaps a point
with digits, then perhaps an exponent. -/
def isNumber (cs : List Char) : Bool :=
  let afterWhole := cs.dropWhile Char.isDigit
  let afterFraction := match afterWhole with
    | '.' :: rest => rest.dropWhile Char.isDigit
    | rest => rest
  cs.head?.any Char.isDigit &&
    match afterFraction with
    | [] => true
    | c :: rest => (c == 'e' || c == 'E') && !rest.isEmpty && rest.all Char.isDigit

/-- A token, by its first characters. -/
inductive Form where
  | separator
  | long (name : String) (value? : Option String)
  | letters (cs : List Char)
  | plain
  deriving DecidableEq, Repr

/-- The form of a token. After two dashes a value may follow the first equals sign; a lone dash
is plain. -/
def Form.of (token : String) : Form :=
  match token.toList with
  | ['-', '-'] => .separator
  | '-' :: '-' :: rest =>
    .long (String.ofList (rest.takeWhile (· != '=')))
      (match rest.dropWhile (· != '=') with
        | [] => none
        | _ :: value => some (String.ofList value))
  | '-' :: c :: rest => .letters (c :: rest)
  | _ => .plain

/-! ### Progress in one command -/

/-- A flag that is met but not yet recorded, with its value when that has come. -/
structure Pending where
  name : String
  type : FlagType
  value? : Option String := none
  deriving DecidableEq, Repr

/-- How far the reading of one command has come. -/
structure Progress where
  /-- Whether the last token was a positional word. -/
  afterWord : Bool := false
  /-- Whether two lone dashes were met, so that all that follows is a word. -/
  trailing : Bool := false
  pending? : Option Pending := none
  settings : Settings := []
  words : List String := []
  deriving DecidableEq, Repr

namespace Progress

/-- The type of the flag that still awaits its value. -/
def awaited? (p : Progress) : Option FlagType :=
  match p.pending? with
  | some ⟨_, type, none⟩ => some type
  | some ⟨_, _, some _⟩ => none
  | none => none

/-- Whether the next token can select a command below. -/
def readsCommands (p : Progress) : Bool :=
  !p.trailing && !p.afterWord && p.awaited?.isNone

/-- Whether an awaited value takes any token. -/
def takesDashes (p : Progress) : Bool :=
  p.awaited?.any FlagType.takesDashes

/-- Whether an awaited value takes what follows a dash. -/
def takesAfterDash (p : Progress) (cs : List Char) : Bool :=
  p.awaited?.any fun type => type.takesDashes || (type.kind == .int && isNumber cs)

/-- Records the pending flag. A flag without its value is an error. -/
def flush (p : Progress) : Except UsageError Progress :=
  match p.pending? with
  | none => .ok p
  | some ⟨_, _, none⟩ => .error .invalidValue
  | some ⟨name, type, some text⟩ => do
    return { p with pending? := none, settings := ← p.settings.store name type text }

/-- Takes a token as a positional word. -/
def addWord (p : Progress) (token : String) : Except UsageError Progress := do
  let p ← p.flush
  return { p with afterWord := true, words := p.words ++ [token] }

/-- Takes a token as the awaited value, if one is awaited, and else as a word. -/
def addValue (p : Progress) (token : String) : Except UsageError Progress :=
  match p.pending? with
  | some ⟨name, type, none⟩ =>
    .ok { p with afterWord := false, pending? := some ⟨name, type, some token⟩ }
  | some ⟨_, _, some _⟩ => p.addWord token
  | none => p.addWord token

/-- Takes a flag. An attached value is recorded at once, as is a bool flag without one; any
other flag awaits its value. -/
def addFlag (p : Progress) (name : String) (type : FlagType) (value? : Option String) :
    Except UsageError Progress := do
  let p ← p.flush
  match value?, type with
  | some text, type =>
    return { p with afterWord := false, settings := ← p.settings.store name type text }
  | none, .bool default =>
    return { p with
      afterWord := false, settings := ← p.settings.store name (.bool default) "true" }
  | none, type => return { p with afterWord := false, pending? := some ⟨name, type, none⟩ }

/-- Takes the argument that shows help. -/
def askHelp (p : Progress) : Except UsageError Progress := do
  let _ ← p.flush
  .error .displayHelp

/-- Takes the argument that shows the version. -/
def askVersion (view : View) (p : Progress) : Except UsageError Progress := do
  let _ ← p.flush
  .error (.displayVersion view.grammar.name (view.grammar.version?.getD ""))

/-- Takes a token with two dashes. -/
def addLong (view : View) (p : Progress) (name : String) (value? : Option String) :
    Except UsageError Progress :=
  match view.named? name with
  | none => .error .unknownArgument
  | some arg =>
    match arg.role, value? with
    | .flag type, value? => p.addFlag arg.name type value?
    | .help, none => p.askHelp
    | .version, none => p.askVersion view
    | .help, some _ => .error .tooManyValues
    | .version, some _ => .error .tooManyValues
    | .words, _ => .error .unknownArgument

/-- Takes the letters after one dash, one after another. A bool flag takes a value only after
an equals sign; for any other flag the rest is the value. -/
def addLetters (view : View) (p : Progress) : List Char → Except UsageError Progress
  | [] => .ok p
  | c :: rest =>
    match view.lettered? c with
    | none => .error .unknownArgument
    | some arg =>
      match arg.role, rest with
      | .help, _ => p.askHelp
      | .version, _ => p.askVersion view
      | .words, _ => .error .unknownArgument
      | .flag type, '=' :: text => p.addFlag arg.name type (some (String.ofList text))
      | .flag type, [] => p.addFlag arg.name type none
      | .flag type, c :: rest =>
        if type.kind = .bool then do addLetters view (← p.addFlag arg.name type none) (c :: rest)
        else p.addFlag arg.name type (some (String.ofList (c :: rest)))

/-- Takes a token that selects no command below. -/
def addToken (view : View) (p : Progress) (token : String) : Except UsageError Progress :=
  if p.trailing then p.addWord token
  else
    match Form.of token with
    | .separator =>
      if p.takesDashes then p.addValue token else .ok { p with trailing := true }
    | .long name value? =>
      if p.takesDashes then p.addValue token else p.addLong view name value?
    | .letters cs =>
      if p.takesAfterDash cs then p.addValue token else p.addLetters view cs
    | .plain => p.addValue token

end Progress

/-! ### Chains of commands -/

/-- A command that a line selects, with what the line gives it. -/
structure Level where
  view : View
  settings : Settings
  words : List String
  deriving Repr

/-- The commands that a line selects, from the root down. -/
inductive Chain where
  | last (level : Level)
  | above (level : Level) (below : Chain)
  deriving Repr

namespace Chain

/-- The command that a line selects in the end. -/
def leaf : Chain → Level
  | .last level => level
  | .above _ below => below.leaf

/-- The commands in order. -/
def levels : Chain → List Level
  | .last level => [level]
  | .above level below => level :: below.levels

/-- The names of persistent flags that some command of the chain sees. -/
def persistentNames (chain : Chain) : List String :=
  chain.levels.flatMap fun level =>
    (level.view.arguments.filter Argument.persistent).map Argument.name

/-- The setting of a name that counts along the chain. -/
def merged (name : String) : Chain → Option Setting
  | .last level => Keyed.find? name level.settings
  | .above level below =>
    Setting.deeper (Keyed.find? name level.settings) (below.merged name)

/-- What a flag is set to on the selected command. A name that is persistent anywhere on the
chain is looked up along the whole chain. -/
def setting? (chain : Chain) (name : String) : Option Setting :=
  if name ∈ chain.persistentNames then chain.merged name
  else Keyed.find? name chain.leaf.settings

end Chain

/-! ### Reading -/

/-- Ends the reading of a command. The pending flag is recorded, then required flags must be
there, and then the other flags get their defaults. -/
def Progress.finish (view : View) (p : Progress) : Except UsageError Level := do
  let p ← p.flush
  if view.arguments.any fun arg => arg.required && (Keyed.find? arg.name p.settings).isNone then
    .error .missingRequired
  else
    return ⟨view, p.settings.withDefaults view.arguments, p.words⟩

/-- What the automatic `help` command answers to the words after it: each has to name a command
below the one before it. The `help` command itself is such a name, with nothing below it. -/
def helpAnswer (view : View) : List String → UsageError
  | [] => .displayHelp
  | word :: rest =>
    match view.grammar.subcommand? word with
    | some grammar => helpAnswer (view.child grammar) rest
    | none =>
      if view.hasHelpCommand ∧ word = helpName ∧ rest = [] then .displayHelp
      else .unknownSubcommand

/-- Reads tokens for a command on which the reading has come as far as `p`. -/
def readTokens (view : View) (p : Progress) : List String → Except UsageError Chain
  | [] => do return .last (← p.finish view)
  | token :: rest =>
    if p.readsCommands then
      match view.grammar.subcommand? token with
      | some grammar => do
        let below ← readTokens (view.child grammar) {} rest
        return .above (← p.finish view) below
      | none =>
        if view.hasHelpCommand ∧ token = helpName then .error (helpAnswer view rest)
        else do readTokens view (← p.addToken view token) rest
    else do readTokens view (← p.addToken view token) rest

/-- Reads a line, the program's name first. -/
def Grammar.parse (grammar : Grammar) (argv : List String) : Except UsageError Chain :=
  readTokens (.ofRoot grammar) {} argv.tail

end ToolTree.CommandLine
