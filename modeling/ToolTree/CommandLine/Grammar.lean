import ToolTree.Decl.FlagKind
import ToolTree.Keyed
import ToolTree.Text.Visible

/-!
Grammars of command lines.

A grammar describes one command: the arguments that it takes and the commands below it. A
persistent argument is seen by every command below as well. `View` is a grammar together with
what it sees from above, and `View.child` is the only way down, so that the view of a command
depends on the chain of grammars above it and on nothing else.
-/

namespace ToolTree.CommandLine

/-! ### Arguments -/

/-- The value type of a flag, with the value it has when a line does not give it. -/
inductive FlagType where
  | string (default? : Option String)
  | bool (default : Bool)
  | int (default? : Option Int)
  | stringSlice
  deriving DecidableEq, Repr

namespace FlagType

/-- The value type alone. -/
def kind : FlagType → FlagKind
  | .string _ => .string
  | .bool _ => .bool
  | .int _ => .int
  | .stringSlice => .stringSlice

/-- Whether an awaited value may be any token, one that starts with a dash included. -/
def takesDashes : FlagType → Bool
  | .string _ => true
  | .bool _ => false
  | .int _ => false
  | .stringSlice => true

/-- The text of the default. -/
def defaultText? : FlagType → Option String
  | .string default? => default?
  | .bool true => some "true"
  | .bool false => some "false"
  | .int default? => default?.map toString
  | .stringSlice => none

end FlagType

/-- What an argument is for. -/
inductive Role where
  | flag (type : FlagType)
  | help
  | version
  | words
  deriving DecidableEq, Repr

/-- An argument of a command. Its name is what stands after two dashes; the argument that
takes the positional words has a name that no line can spell. -/
structure Argument where
  name : String
  short? : Option Char := none
  summary : String
  role : Role
  required : Bool := false
  hidden : Bool := false
  persistent : Bool := false
  /-- The place among the named arguments of the command that declares it. -/
  rank : Nat := 0
  deriving DecidableEq, Repr

namespace Argument

/-- Whether the argument is given by name. -/
def isNamed (arg : Argument) : Bool :=
  match arg.role with
  | .words => false
  | .flag _ => true
  | .help => true
  | .version => true

/-- The type of the values of a flag. -/
def flagType? (arg : Argument) : Option FlagType :=
  match arg.role with
  | .flag type => some type
  | .help => none
  | .version => none
  | .words => none

/-- What a reader sees of the summary. -/
def shownSummary (arg : Argument) : String :=
  Text.visible arg.summary

end Argument

/-! ### Commands -/

/-- What a grammar says of a command, without the commands below it. -/
structure Head where
  name : String
  about : String
  longAbout? : Option String := none
  version? : Option String := none
  aliases : List String := []
  hidden : Bool := false
  /-- Whether the automatic `help` command may stand beside the commands below. -/
  helpCommand : Bool := true
  /-- A usage text that stands in place of the derived one. -/
  usage? : Option String := none
  arguments : List Argument
  deriving DecidableEq, Repr

/-- What a reader sees of the text that says what a command is about. -/
def Head.shownAbout (head : Head) : String :=
  Text.visible head.about

/-- What a reader sees of the long text that says what a command is about. -/
def Head.shownLongAbout? (head : Head) : Option String :=
  head.longAbout?.map Text.visible

/-- The grammar of a command and of those below it. -/
structure Grammar extends Head where
  subcommands : List Grammar := []
  deriving Repr

/-- The name of the automatic command that shows help. -/
def helpName : String :=
  "help"

namespace Grammar

/-- Whether a word selects the command, by its name or by an alias. -/
def isCalled (grammar : Grammar) (word : String) : Bool :=
  grammar.name == word || grammar.aliases.contains word

/-- The first command below that a word selects. -/
def subcommand? (grammar : Grammar) (word : String) : Option Grammar :=
  grammar.subcommands.find? fun child => child.isCalled word

end Grammar

/-! ### Views -/

/-- A command as a line meets it: its grammar, all arguments that it sees, and whether the
automatic `help` command is ruled out neither on it nor above it. -/
structure View where
  grammar : Grammar
  arguments : List Argument
  helpAllowed : Bool
  deriving Repr

namespace View

/-- The view of a grammar that stands under no other. -/
def ofRoot (grammar : Grammar) : View :=
  ⟨grammar, grammar.arguments, grammar.helpCommand⟩

/-- The arguments that a view hands down to a command: the persistent ones whose names the
command does not use itself. -/
def inherited (view : View) (child : Grammar) : List Argument :=
  view.arguments.filter fun arg =>
    arg.persistent && !child.arguments.any fun own => own.name == arg.name

/-- The view of a command below. -/
def child (view : View) (grammar : Grammar) : View :=
  ⟨grammar, grammar.arguments ++ view.inherited grammar, view.helpAllowed && grammar.helpCommand⟩

/-- Whether the automatic `help` command stands beside the commands below. -/
def hasHelpCommand (view : View) : Bool :=
  view.helpAllowed && !view.grammar.subcommands.isEmpty

/-- The named argument with a name. -/
def named? (view : View) (name : String) : Option Argument :=
  view.arguments.find? fun arg => arg.isNamed && arg.name == name

/-- The argument with a short form. -/
def lettered? (view : View) (letter : Char) : Option Argument :=
  view.arguments.find? fun arg => arg.short? == some letter

end View

end ToolTree.CommandLine
