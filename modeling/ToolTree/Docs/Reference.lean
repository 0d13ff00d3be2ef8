import ToolTree.Decl.Reading
import ToolTree.Decl.Schema
import ToolTree.Source.Stub

/-!
The reference of the declaration format: what may be written, a quick start, and what is
generated from a declaration. None of it depends on a user's tool.
-/

namespace ToolTree.Docs

/-! ### Samples -/

/-- The declaration of the quick start. -/
def exampleDeclaration : String := Text.unlines [
  "name: \"my-tool\"",
  "version: \"1.0.0\"",
  "root:",
  "  use: \"my-tool\"",
  "  short: \"My CLI tool\"",
  "  flags:",
  "    - name: \"config\"",
  "      shorthand: \"c\"",
  "      type: \"string\"",
  "      usage: \"Config file path\"",
  "      persistent: true",
  "",
  "commands:",
  "  list:",
  "    use: \"list\"",
  "    short: \"List items\"",
  "    args:",
  "      type: none",
  "    run_func: \"runList\"",
  "",
  "  add:",
  "    use: \"add <name>\"",
  "    short: \"Add an item\"",
  "    args:",
  "      type: exact",
  "      count: 1",
  "    run_func: \"runAdd\"",
  "",
  "  delete:",
  "    use: \"delete <name>\"",
  "    short: \"Delete an item\"",
  "    aliases:",
  "      - rm",
  "    args:",
  "      type: exact",
  "      count: 1",
  "    run_func: \"runDelete\""]

/-- The program of the quick start. -/
def exampleProgram : String := Text.unlines [
  "use command_tree::\x7bHandlerRegistry, ToolConfig, build\x7d;",
  "",
  "const COMMANDS_YAML: &str = include_str!(\"commands.yaml\");",
  "",
  "fn main() -> Result<(), Box<dyn std::error::Error>> \x7b",
  "    let config = ToolConfig::from_yaml(COMMANDS_YAML)?;",
  "",
  "    let mut registry = HandlerRegistry::new();",
  "    registry",
  "        .register_action(\"runList\", |_ctx| \x7b",
  "            println!(\"Listing items...\");",
  "            Ok(())",
  "        \x7d)",
  "        .register(\"runAdd\", |_ctx, args| \x7b",
  "            println!(\"Adding: \x7b\x7d\", args[0]);",
  "            Ok(())",
  "        \x7d)",
  "        .register(\"runDelete\", |_ctx, args| \x7b",
  "            println!(\"Deleting: \x7b\x7d\", args[0]);",
  "            Ok(())",
  "        \x7d);",
  "",
  "    let tree = build(&config, &registry)?;",
  "    if let Err(err) = tree.execute() \x7b",
  "        err.exit();",
  "    \x7d",
  "    Ok(())",
  "\x7d"]

/-- The declaration whose stub the reference shows. -/
def stubSample : String := String.intercalate "\n" [
  "name: \"example\"",
  "root:",
  "  use: \"example\"",
  "  short: \"Example CLI tool\"",
  "commands:",
  "  add:",
  "    use: \"add <name>\"",
  "    short: \"Add an item\"",
  "    run_func: \"runAdd\"",
  "    flags:",
  "      - name: \"force\"",
  "        shorthand: \"f\"",
  "        type: bool",
  "        usage: \"Force the operation\"",
  "    args:",
  "      type: exact",
  "      count: 1"]

/-! ### Tables -/

/-- The row of a flag type. -/
def flagKindRow (kind : FlagKind) : String :=
  let doc := Schema.flagKindDoc kind
  s!"| `{kind.spelling}` | `{doc.type}` | `{doc.sample}` |"

/-- The row of a kind of argument rule. -/
def arityKindRow (kind : ArityKind) : String :=
  let doc := Schema.arityKindDoc kind
  s!"| `{kind.spelling}` | {doc.description} | {doc.snippet} |"

/-- The row of a documented key, with a column for required keys or without. -/
def fieldRow (withRequired : Bool) (f : Schema.Field) : String :=
  if withRequired then
    let required := if f.required then "Yes" else ""
    s!"| `{f.key}` | `{f.type}` | {required} | {f.description} |"
  else s!"| `{f.key}` | `{f.type}` | {f.description} |"

/-- The table of a structure. Only that of flags has a column for required keys. -/
def structureTable (owner : String) : List String :=
  let withRequired := owner == "FlagConfig"
  let title := if owner == "ToolConfig" then "ToolConfig (Root)" else owner
  [s!"### {title}", ""] ++
    (if withRequired then
      ["| YAML Key | Type | Required | Description |",
        "|----------|------|----------|-------------|"]
    else
      ["| YAML Key | Type | Description |",
        "|----------|------|-------------|"]) ++
    (Schema.fieldsOf owner).map (fieldRow withRequired) ++ [""]

/-- The reference of the format. -/
def formatReference : String := Text.unlines <|
  ["### Flag Types", "",
    "| Type | Rust Type | Example |",
    "|------|-----------|---------|"] ++
  FlagKind.all.map flagKindRow ++
  ["", "### Args Validation", "",
    "| Type | Description | Config |",
    "|------|-------------|--------|"] ++
  ArityKind.all.map arityKindRow ++ [""] ++
  Schema.structures.flatMap structureTable ++
  ["### Validation",
    "",
    "Configurations are validated when loaded, before any command is built. Every problem " ++
      "is reported at once. Beyond the required fields above:",
    "",
    "- `root` must not declare `commands`; top-level commands go in the top-level `commands` map.",
    "- Flag `type` must be one of the flag types listed above.",
    "- Flag `shorthand` must be a single character.",
    "- Command names (the first word of `use`, or the map key) and flag names and " ++
      "shorthands must be unique among siblings.",
    "",
    "### Hidden Commands/Flags",
    "",
    "```yaml",
    "commands:",
    "  internal:",
    "    use: internal",
    "    short: Internal command",
    "    hidden: true",
    "",
    "root:",
    "  flags:",
    "    - name: debug",
    "      type: bool",
    "      usage: Enable debug output",
    "      hidden: true",
    "```"]

/-- The quick start: a declaration, a program, and commands to try. -/
def quickStart : String :=
  "1. Create `src/commands.yaml`:\n\n```yaml\n" ++ exampleDeclaration ++
    "```\n\n1. Create `src/main.rs`:\n\n```rust\n" ++ exampleProgram ++
    "```\n\n1. Run:\n\n" ++
    Text.unlines [
      "```bash",
      "cargo run -- --help",
      "cargo run -- list",
      "cargo run -- add myitem",
      "cargo run -- --version",
      "```"]

/-- The module of stubs that the reference shows. A malformed sample has none. -/
def sampleModule : Traced GenerateError String :=
  match ToolDecl.ofYaml stubSample with
  | .error _ => pure ""
  | .ok tool => Source.handlerModule tool "handlers"

/-- The lines of the stubs that the reference shows, from the first description on. -/
def stubLines : List String :=
  match sampleModule.result with
  | .error _ => []
  | .ok text => (Text.lines text).dropWhile fun line => !line.startsWith "///"

/-- What is generated from a declaration, and how. -/
def generationReference : String :=
  Text.unlines [
    "Generate handler stubs from your YAML configuration:", "",
    "```bash",
    "# Create a new commands.yaml template",
    "cmdtree init my-app",
    "",
    "# Generate src/handlers.rs and src/main.rs",
    "cmdtree gen src/commands.yaml",
    "",
    "# Choose the module name and output paths",
    "cmdtree gen src/commands.yaml -p commands -o src/commands.rs -m src/main.rs",
    "```", "",
    "### Generated Code Example", "",
    "From this YAML:", "",
    "```yaml"] ++ stubSample ++
    "\n```\n\nGenerates:\n\n```rust\n" ++
    String.intercalate "\n" stubLines ++ "\n```\n"

/-- What is reported while the generated text of the reference is made. -/
def generationEvents : List Event :=
  sampleModule.events

end ToolTree.Docs
