import ToolTree.Decl.Arity
import ToolTree.Decl.FlagKind

/-!
The documented parts of a declaration, as a table.

Each row names a structure, a key in it, the type shown for the key, whether a valid declaration
needs a non-empty value there, and a description.
-/

namespace ToolTree.Schema

/-- One documented key. -/
structure Field where
  owner : String
  key : String
  type : String
  required : Bool
  description : String
  deriving DecidableEq, Repr

/-- The documented structures, in the order of the reference. -/
def structures : List String :=
  ["ToolConfig", "CommandConfig", "ArgsConfig", "FlagConfig"]

/-- Every documented key, grouped by structure. -/
def fields : List Field := [
  ⟨"ToolConfig", "name", "String", true, "Tool name"⟩,
  ⟨"ToolConfig", "description", "String", false, "Tool description"⟩,
  ⟨"ToolConfig", "version", "String", false, "Tool version (shown with --version)"⟩,
  ⟨"ToolConfig", "root", "CommandConfig", true, "Root command configuration"⟩,
  ⟨"ToolConfig", "commands", "BTreeMap<String, CommandConfig>", false, "Top-level subcommands"⟩,
  ⟨"CommandConfig", "use", "String", true,
    "Command name and argument pattern (e.g., `add <name>`)"⟩,
  ⟨"CommandConfig", "aliases", "Vec<String>", false, "Alternative command names"⟩,
  ⟨"CommandConfig", "short", "String", true, "Brief description shown in help"⟩,
  ⟨"CommandConfig", "long", "String", false, "Detailed description"⟩,
  ⟨"CommandConfig", "args", "Option<ArgsConfig>", false, "Argument validation configuration"⟩,
  ⟨"CommandConfig", "run_func", "String", false, "Name of the handler function"⟩,
  ⟨"CommandConfig", "flags", "Vec<FlagConfig>", false, "List of flag definitions"⟩,
  ⟨"CommandConfig", "commands", "BTreeMap<String, CommandConfig>", false, "Nested subcommands"⟩,
  ⟨"CommandConfig", "hidden", "bool", false, "Hide command from help output"⟩,
  ⟨"ArgsConfig", "type", "String", true, "Validation type (none, any, exact, min, max, range)"⟩,
  ⟨"ArgsConfig", "count", "i64", false, "Required count for `exact`"⟩,
  ⟨"ArgsConfig", "min", "i64", false, "Minimum count for `min` and `range`"⟩,
  ⟨"ArgsConfig", "max", "i64", false, "Maximum count for `max` and `range`"⟩,
  ⟨"FlagConfig", "name", "String", true, "Flag name (e.g., `namespace` for --namespace)"⟩,
  ⟨"FlagConfig", "shorthand", "String", false, "Short flag (e.g., `n` for -n)"⟩,
  ⟨"FlagConfig", "type", "String", true, "Flag type (string, bool, int, stringSlice)"⟩,
  ⟨"FlagConfig", "default", "String", false, "Default value"⟩,
  ⟨"FlagConfig", "usage", "String", true, "Description shown in help"⟩,
  ⟨"FlagConfig", "required", "bool", false, "Mark flag as required"⟩,
  ⟨"FlagConfig", "persistent", "bool", false, "Inherit flag to all subcommands"⟩,
  ⟨"FlagConfig", "hidden", "bool", false, "Hide flag from help output"⟩]

/-- The documented keys of one structure, in order. -/
def fieldsOf (owner : String) : List Field :=
  fields.filter fun f => f.owner == owner

/-- One documented key of a structure. -/
def field? (owner key : String) : Option Field :=
  fields.find? fun f => f.owner == owner && f.key == key

/-- What the reference shows for a flag type. -/
structure FlagKindDoc where
  type : String
  sample : String
  deriving DecidableEq, Repr

/-- The shown type of a flag's value, and a sample command line. -/
def flagKindDoc : FlagKind → FlagKindDoc
  | .string => ⟨"String", "--name foo"⟩
  | .bool => ⟨"bool", "--debug"⟩
  | .int => ⟨"i64", "--count 10"⟩
  | .stringSlice => ⟨"Vec<String>", "--tags a,b,c"⟩

/-- What the reference shows for a kind of arity rule. -/
structure ArityKindDoc where
  description : String
  snippet : String
  deriving DecidableEq, Repr

/-- A description of a kind of rule, and how it is written. -/
def arityKindDoc : ArityKind → ArityKindDoc
  | .none => ⟨"No arguments allowed", "`type: none`"⟩
  | .any => ⟨"Any number of arguments", "`type: any`"⟩
  | .exact => ⟨"Exact number required", "`type: exact`, `count: N`"⟩
  | .min => ⟨"Minimum number", "`type: min`, `min: N`"⟩
  | .max => ⟨"Maximum number", "`type: max`, `max: N`"⟩
  | .range => ⟨"Range of arguments", "`type: range`, `min: N`, `max: N`"⟩

end ToolTree.Schema
