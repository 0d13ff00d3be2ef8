import ToolTree.Text.Lines
import ToolTree.Text.Quoted

/-!
A first declaration for a new tool, in YAML.

The tool's name stands in it as a plain scalar where that cannot be read as anything else, and
between double quotes otherwise.
-/

namespace ToolTree.Docs

/-- Whether a text is a plain scalar whatever stands around it: ASCII letters, digits, dashes,
underscores and dots, starting with a letter. -/
def isPlainScalar : List Char → Bool
  | [] => false
  | c :: rest =>
    c.isAlpha && rest.all fun d => d.isAlphanum || d == '-' || d == '_' || d == '.'

/-- A text as a scalar. -/
def scalar (text : String) : String :=
  if isPlainScalar text.toList then text else Text.quote text

/-- The lines of the first declaration of a tool, with its name and its summary as scalars. -/
def templateLines (name summary : String) : List String := [
  "# Command tree configuration.",
  "# Generate handlers with: cmdtree gen commands.yaml",
  "# Check it with: cmdtree validate commands.yaml",
  "",
  s!"name: {name}",
  s!"description: {summary}",
  "version: 0.1.0",
  "",
  "root:",
  s!"  use: {name}",
  s!"  short: {summary}",
  "  # Root takes flags only; its subcommands go in the top-level commands map",
  "  flags:",
  "    # Flag types: string, bool, int, stringSlice",
  "    # Shorthands are a single character",
  "    - name: verbose",
  "      shorthand: v",
  "      type: bool",
  "      usage: Enable verbose output",
  "      # Persistent flags are inherited by every subcommand",
  "      persistent: true",
  "",
  "commands:",
  "  hello:",
  "    use: hello <name>",
  "    short: Say hello",
  "    long: |",
  "      Print a greeting for the given name.",
  "    # Args types: none, any, exact (count), min (min), max (max), range (min, max)",
  "    args:",
  "      type: exact",
  "      count: 1",
  "    run_func: runHello",
  "    flags:",
  "      - name: greeting",
  "        shorthand: g",
  "        type: string",
  "        default: Hello",
  "        usage: Greeting to use",
  "",
  "  config:",
  "    use: config",
  "    short: Manage configuration",
  "    commands:",
  "      show:",
  "        use: show",
  "        short: Show the current configuration",
  "        aliases: [get]",
  "        args:",
  "          type: none",
  "        run_func: runConfigShow"]

/-- The first declaration of a tool. -/
def template (name : String) : String :=
  Text.unlines (templateLines (scalar name) (scalar s!"{name} command-line tool"))

end ToolTree.Docs
