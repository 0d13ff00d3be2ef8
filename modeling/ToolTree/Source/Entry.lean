import ToolTree.Source.Stub

/-!
The entry point of a tool in source text: it reads the declaration, registers every function of
the handler module, builds the tree of commands and runs it.
-/

namespace ToolTree.Source

/-- A function that the entry point registers: under its name in the declaration, and as the
source refers to it. -/
structure Registration where
  name : String
  identifier : String
  deriving DecidableEq, Repr

/-- The registration of a function. -/
def Registration.ofSpec (spec : HandlerSpec) : Except GenerateError Registration := do
  return ⟨spec.name, ← spec.functionName⟩

/-- The line of a registration. -/
def Registration.line (moduleName : String) (r : Registration) : String :=
  s!"    registry.register({Text.quote r.name}, {moduleName}::{r.identifier});"

/-- The lines that end a match on a result, binding the value to a name. -/
def matchArms (name : String) : List String := [
  s!"        Ok({name}) => {name},",
  "        Err(err) => \x7b",
  "            eprintln!(\"error: \x7berr\x7d\");",
  "            std::process::exit(1);",
  "        \x7d",
  "    \x7d;"]

/-- The lines of the entry point. -/
def entryLines (tool : ToolDecl) (moduleName configFile : String)
    (registrations : List Registration) : List String :=
  [s!"//! Entry point for `{tool.rootName}`.",
    "//!",
    s!"//! Generated by cmdtree. Commands are defined in `{configFile}`.",
    "",
    s!"mod {moduleName};",
    "",
    "use command_tree::\x7bHandlerRegistry, ToolConfig, build\x7d;",
    "",
    s!"const COMMANDS_YAML: &str = include_str!({Text.quote configFile});",
    "",
    "fn main() \x7b",
    "    let config = match ToolConfig::from_yaml(COMMANDS_YAML) \x7b"] ++
    matchArms "config" ++
    ["", "    let mut registry = HandlerRegistry::new();"] ++
    registrations.map (Registration.line moduleName) ++
    ["", "    let tree = match build(&config, &registry) \x7b"] ++
    matchArms "tree" ++
    ["",
      "    if let Err(err) = tree.execute() \x7b",
      "        err.exit();",
      "    \x7d",
      "\x7d"]

/-- The entry point of a tool whose declaration stands in a file. -/
def entryPoint (tool : ToolDecl) (moduleName configFile : String) :
    Traced GenerateError String := do
  let specs ← moduleSpecs tool moduleName
  let registrations ← Traced.ofExcept (specs.mapM Registration.ofSpec)
  Traced.report {
    level := .info
    message := "Generated main"
    fields := [("module", .quoted moduleName), ("config_file", .quoted configFile),
      ("handlers", .number specs.length)] }
  return Text.unlines (entryLines tool moduleName configFile registrations)

end ToolTree.Source
