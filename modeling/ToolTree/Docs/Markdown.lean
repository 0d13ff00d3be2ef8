import ToolTree.Decl.Basic
import ToolTree.Event
import ToolTree.Text.Lines

/-!
The documentation of a tool in Markdown.

A document is a header and one section for each visible command, in key order, a command before
the commands below it. A hidden command is left out with everything below it, and hidden flags
are left out of the tables. At the end runs of blank lines are collapsed.
-/

namespace ToolTree.Docs

/-! ### Blank lines -/

/-- Drops each blank line that follows a blank line. `blank` tells whether one went before. -/
def dropRepeatedBlanks (blank : Bool) : List String → List String
  | [] => []
  | line :: rest =>
    if Text.isBlankText line then
      if blank then dropRepeatedBlanks true rest else line :: dropRepeatedBlanks true rest
    else line :: dropRepeatedBlanks false rest

/-- Collapses each run of blank lines into its first line, and ends the text with one line feed
and no other blank. -/
def collapseBlankLines (text : String) : String :=
  Text.trimEnd (Text.unlines (dropRepeatedBlanks false (Text.lines text))) ++ "\n"

/-! ### The table of flags -/

/-- A text in a cell of a table: bars are escaped and line feeds become spaces. -/
def cell (text : String) : String :=
  String.ofList <| text.toList.flatMap fun c =>
    if c = '|' then ['\\', '|'] else if c = '\n' then [' '] else [c]

/-- The row of a flag. -/
def flagRow (flag : FlagDecl) : String :=
  let shorthand := if flag.shorthand = "" then "" else s!"`-{flag.shorthand}`"
  let defaultText := if flag.defaultText = "" then "" else s!"`{cell flag.defaultText}`"
  let required := if flag.required then " **(required)**" else ""
  s!"| `--{flag.name}` | {shorthand} | {flag.kind} | {defaultText} | " ++
    s!"{cell flag.usage}{required} |\n"

/-- The table of flags. -/
def flagTable (flags : List FlagDecl) : String :=
  "| Flag | Shorthand | Type | Default | Description |\n" ++
    "|------|-----------|------|---------|-------------|\n" ++
    String.join (flags.map flagRow)

/-- The flags that are not hidden. -/
def visibleFlags (flags : List FlagDecl) : List FlagDecl :=
  flags.filter (!·.hidden)

/-! ### Sections -/

/-- A paragraph, left out when its text is empty. -/
def paragraph (text : String) : String :=
  if text = "" then "" else text ++ "\n\n"

/-- A block of shell text. -/
def shellBlock (line : String) : String :=
  "```bash\n" ++ line ++ "\n```\n\n"

/-- The heading of a command: three marks at the top, one more at each level below. -/
def heading (depth : Nat) (name : String) : String :=
  String.ofList (List.replicate (3 + depth) '#') ++ " " ++ name ++ "\n\n"

/-- The section of a command, those of the commands below it apart. -/
def section_ (command : CommandFields) (name parent : String) (depth : Nat) : String :=
  let useLine := if command.useLine = "" then name else command.useLine
  let aliases := if command.aliases.isEmpty then ""
    else "**Aliases:** " ++ String.intercalate ", " command.aliases ++ "\n\n"
  let arguments := match command.args.map ArgsDecl.arity with
    | some (.ok rule) => s!"**Arguments:** {rule.describe}\n\n"
    | _ => ""
  let flags := visibleFlags command.flags
  let flagPart := if flags.isEmpty then "" else "**Flags:**\n\n" ++ flagTable flags ++ "\n"
  heading depth name ++ paragraph command.summary ++ shellBlock (parent ++ " " ++ useLine) ++
    paragraph command.details ++ aliases ++ arguments ++ flagPart

mutual

/-- The sections of a command, under the name `name`, and of the visible commands below it. -/
def commandSections (name parent : String) (depth : Nat) : CommandDecl → List String
  | ⟨fields, commands⟩ =>
    section_ fields name parent depth ::
      sectionsBelow (parent ++ " " ++ name) (depth + 1) commands

/-- The sections of the visible commands among those below a path. -/
def sectionsBelow (parent : String) (depth : Nat) :
    List (String × CommandDecl) → List String
  | [] => []
  | (key, command) :: rest =>
    (if command.hidden then []
      else commandSections (command.nameOr key) parent depth command) ++
      sectionsBelow parent depth rest

end

/-- What stands before the sections. -/
def header (tool : ToolDecl) : String :=
  let version := if tool.version = "" then "" else s!"**Version:** {tool.version}\n\n"
  let useLine := tool.root.useLine ++
    if tool.commands.all fun (_, command) => command.hidden then "" else " [command]"
  let flags := visibleFlags tool.root.flags
  let flagPart := if flags.isEmpty then ""
    else "### Global Flags\n\n" ++ flagTable flags ++ "\n"
  s!"# {tool.name}\n\n" ++ paragraph tool.description ++ version ++
    "## Installation\n\n" ++ shellBlock s!"cargo install {tool.name}" ++
    "## Usage\n\n" ++ shellBlock useLine ++ paragraph tool.root.details ++ flagPart ++
    "## Commands\n\n"

/-- The documentation of a tool. -/
def markdown (tool : ToolDecl) : String :=
  collapseBlankLines <|
    header tool ++ String.join (sectionsBelow tool.rootName 0 tool.commands)

/-- What is reported when the documentation is done. -/
def markdownEvents (tool : ToolDecl) : List Event := [{
  level := .info
  message := "Generated docs"
  fields := [("tool", .shown tool.name), ("bytes", .number (markdown tool).utf8ByteSize)] }]

end ToolTree.Docs
