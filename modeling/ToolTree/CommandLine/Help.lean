import ToolTree.CommandLine.Usage
import ToolTree.Text.Quoted

/-!
Help texts.

A help text is what the command is about, its usage, and a section for each kind of thing that
can follow: commands, words and options. A section is a table of rows with a left column and a
help column. The help stands beside the left column, or below it when the left column is wide
and some help would not fit on its line. Help texts are laid out as styled text; what is shown
of them is the visible part.
-/

namespace ToolTree.CommandLine

/-! ### Rows -/

/-- A row of a section. -/
structure Row where
  /-- What the row is about, and how many columns that takes. -/
  left : String
  leftWidth : Nat
  help : String
  /-- What stands in brackets after the help. -/
  notes : String := ""
  deriving DecidableEq, Repr

/-- The columns of a line. -/
def lineWidth : Nat :=
  100

/-- A run of spaces. -/
def blanks (n : Nat) : String :=
  String.ofList (List.replicate n ' ')

/-- The line breaks that a help text spells in braces. -/
def breakLines : List Char → List Char
  | '\x7b' :: 'n' :: '\x7d' :: rest => '\n' :: breakLines rest
  | c :: rest => c :: breakLines rest
  | [] => []

/-- A text with its spelled line breaks made. -/
def broken (text : String) : String :=
  String.ofList (breakLines text.toList)

namespace Row

/-- The width of the left column of a table. -/
def column (rows : List Row) : Nat :=
  rows.foldl (fun acc row => max acc row.leftWidth) 2

/-- Whether the help of a row does not fit beside a left column that takes much of the line. -/
def overflows (column : Nat) (row : Row) : Bool :=
  40 < column + 4 && column + 4 ≤ lineWidth &&
    lineWidth - (column + 4) < Text.visibleWidth row.help + Text.width row.notes

/-- The help of a row with its notes, where lines after the first start at a column. -/
def helpText (row : Row) (indent : Nat) : String :=
  let help := broken row.help
  let text :=
    if row.notes = "" then help
    else if help = "" then row.notes
    else help ++ " " ++ row.notes
  String.ofList <| text.toList.flatMap fun c =>
    if c = '\n' then '\n' :: List.replicate indent ' ' else [c]

/-- A row of a table with a left column of some width. -/
def render (column : Nat) (below : Bool) (row : Row) : String :=
  if below then "  " ++ row.left ++ "\n" ++ blanks 10 ++ row.helpText 10
  else
    "  " ++ row.left ++ blanks (column + 2 - row.leftWidth) ++ row.helpText (column + 4)

end Row

/-- A section: its heading and its rows. The table is laid out for `all` rows, of which `shown`
are written. -/
def renderSection (heading : String) (all shown : List Row) : String :=
  let column := Row.column all
  let below := all.any (Row.overflows column)
  Text.heading (heading ++ ":") ++ "\n" ++ String.intercalate "\n" (shown.map (Row.render column below))

/-! ### The rows of a command -/

/-- Names of the same command in brackets; there is no note if nothing would stand in them. -/
def aliasNote (aliases : List String) : String :=
  let names := String.intercalate ", " aliases
  if names = "" then ""
  else if aliases.length = 1 then s!"[alias: {names}]"
  else s!"[aliases: {names}]"

/-- The row of a command with a name. -/
def commandRow (name help notes : String) : Row where
  left := Text.literal name
  leftWidth := Text.visibleWidth (Text.literal name)
  help
  notes

/-- The row of a command below. -/
def Grammar.row (grammar : Grammar) : Row :=
  commandRow grammar.name grammar.about (aliasNote grammar.aliases)

/-- The row of the automatic `help` command. -/
def helpRow : Row :=
  commandRow helpName "Print this message or the help of the given subcommand(s)" ""

/-- How many named arguments and commands the row of the automatic `help` command stands behind,
if there are that many. -/
def helpRank : Nat :=
  999

/-- Whether the row of a command with a rank stands before that of the automatic one. -/
def Grammar.isBeforeHelp (grammar : Grammar) (rank : Nat) : Bool :=
  rank < helpRank ||
    (rank == helpRank && Text.literal grammar.name < Text.literal helpName)

/-- A default in brackets. It is quoted when it is empty or holds a blank. -/
def defaultNote (text : String) : String :=
  "[default: " ++ (if text = "" ∨ Text.hasBlank text then Text.quote text else text) ++ "]"

namespace Argument

/-- What is told of the values of a flag. -/
def notes (arg : Argument) : String :=
  match arg.flagType? with
  | none => ""
  | some type =>
    spaced (type.defaultText?.toList.map defaultNote ++
      (if type.kind = .bool then ["[possible values: true, false]"] else []))

/-- The row of a named argument. -/
def row (arg : Argument) : Row where
  left := (match arg.short? with
    | some c => Text.literal (String.ofList ['-', c]) ++ ", "
    | none => blanks 4) ++ arg.styledText
  leftWidth := Text.width (Text.visible arg.longText) + 4
  help := arg.summary
  notes := arg.notes

/-- What rows with the same rank are ordered by: the short form without regard to case, lower
case first, else the name. -/
def rowKey (arg : Argument) : String :=
  match arg.short? with
  | some c => String.ofList [c.toLower, if c.isLower then '0' else '1']
  | none => arg.name

/-- Whether the row of an argument stands before that of another. -/
def rowBefore (a b : Argument) : Bool :=
  a.rank < b.rank || (a.rank == b.rank && a.rowKey < b.rowKey)

/-- The arguments with one more, in the order of their rows. Of two that are nowhere told apart
the later stays. -/
def insertRow (arg : Argument) : List Argument → List Argument
  | [] => [arg]
  | other :: rest =>
    if arg.rowBefore other then arg :: other :: rest
    else if other.rowBefore arg then other :: insertRow arg rest
    else arg :: rest

end Argument

/-! ### Sections -/

namespace View

/-- The commands below that are shown, each with its rank: its place after the named arguments
and the commands before it. -/
def rankedCommands (view : View) : List (Grammar × Nat) :=
  (view.grammar.subcommands.zipIdx (view.grammar.arguments.filter Argument.isNamed).length).filter
    fun entry => !entry.1.hidden

/-- The section on the commands below. -/
def commandSection (view : View) : List String :=
  if view.showsCommands then
    let (before, after) := view.rankedCommands.partition fun (child, rank) =>
      child.isBeforeHelp rank
    let rows := before.map (·.1.row) ++ (if view.hasHelpCommand then [helpRow] else []) ++
      after.map (·.1.row)
    [renderSection "Commands" rows rows]
  else []

/-- The section on the words. -/
def wordSection (view : View) : List String :=
  match view.arguments.filter fun arg => !arg.isNamed && !arg.hidden with
  | [] => []
  | args =>
    let rows := args.map fun arg : Argument =>
      ({ left := wordsText, leftWidth := wordsText.length, help := arg.summary } : Row)
    [renderSection "Arguments" rows rows]

/-- The section on the named arguments. -/
def optionSection (view : View) : List String :=
  match view.arguments.filter fun arg => arg.isNamed && !arg.hidden with
  | [] => []
  | args =>
    [renderSection "Options" (args.map Argument.row)
      ((args.foldl (fun acc arg => Argument.insertRow arg acc) []).map Argument.row)]

/-- Drops the first line of a text if it is blank. -/
def dropBlankLine (text : String) : String :=
  let cs := text.toList
  match cs.dropWhile (· != '\n') with
  | [] => text
  | _ :: rest => if (cs.takeWhile (· != '\n')).all Text.isBlank then String.ofList rest else text

/-- The help text of a command that is shown under a path. -/
def help (view : View) (path : String) : String :=
  let head := broken view.grammar.about ++ "\n\n" ++ view.titledUsage path
  let sections := view.commandSection ++ view.wordSection ++ view.optionSection
  Text.visible (Text.trimEnd (dropBlankLine (String.intercalate "\n\n" (head :: sections))) ++ "\n")

/-- What a user may type to get help: the argument for it, else the command for it. -/
def helpHint? (view : View) : Option String :=
  match view.arguments.find? fun arg => arg.role == .help with
  | some arg => some s!"--{arg.name}"
  | none => if view.hasHelpCommand then some helpName else none

/-- What stands behind the message of a refused line, as styled text: the usage of the command
and how to get help. -/
def advice (view : View) (path : String) : String :=
  "\n\n" ++ view.titledUsage path ++
    match view.helpHint? with
    | some hint => "\n\nFor more information, try '" ++ Text.literal hint ++ "'.\n"
    | none => "\n"

end View

namespace Chain

/-- The path under which the selected command is shown, when the first word of the line may name
a file. -/
def usagePath (chain : Chain) (program? : Option String) : String :=
  match chain.levels.map Level.view with
  | [] => ""
  | root :: below => CommandLine.usagePath (program?.bind fileName?) root below

/-- The help text of the selected command. -/
def help (chain : Chain) (program? : Option String) : String :=
  chain.leaf.view.help (chain.usagePath program?)

/-- The advice of the selected command. -/
def advice (chain : Chain) (program? : Option String) : String :=
  chain.leaf.view.advice (chain.usagePath program?)

end Chain

end ToolTree.CommandLine
