import ToolTree.Decl.Basic
import ToolTree.Text.Decimal
import ToolTree.Value

/-!
Declarations as structured values.

Writing leaves out every part that is empty, zero, false or absent, apart from the few keys
that are always written: `name` and `root` of a tool, `use` and `short` of a command, `type` of
an argument rule, and `name`, `type` and `usage` of a flag. Reading gives each missing part its
empty value and ignores unknown keys, so reading what was written gives the declaration back;
a part of the wrong kind, or an integer of more than 64 bits, is refused.
-/

namespace ToolTree

open Value (field?)

/-! ### Writing -/

/-- An entry for a text, unless it is empty. -/
def textEntry (key s : String) : List (String × Value) :=
  if s = "" then [] else [(key, .text s)]

/-- An entry for a number, unless it is zero. -/
def intEntry (key : String) (n : Int) : List (String × Value) :=
  if n = 0 then [] else [(key, .int n)]

/-- An entry for a mark, if it is set. -/
def boolEntry (key : String) (b : Bool) : List (String × Value) :=
  if b then [(key, .bool true)] else []

/-- An entry for a list, unless it is empty. -/
def listEntry (key : String) (items : List Value) : List (String × Value) :=
  if items.isEmpty then [] else [(key, .list items)]

/-- An entry for a map, unless it is empty. -/
def mapEntry (key : String) (entries : List (String × Value)) : List (String × Value) :=
  if entries.isEmpty then [] else [(key, .map entries)]

/-- An argument rule as a value. -/
def ArgsDecl.toValue (args : ArgsDecl) : Value :=
  .map <| [("type", .text args.kind)] ++ intEntry "count" args.count ++
    intEntry "min" args.min ++ intEntry "max" args.max

/-- A flag as a value. -/
def FlagDecl.toValue (flag : FlagDecl) : Value :=
  .map <| [("name", .text flag.name)] ++ textEntry "shorthand" flag.shorthand ++
    [("type", .text flag.kind)] ++ textEntry "default" flag.defaultText ++
    [("usage", .text flag.usage)] ++ boolEntry "required" flag.required ++
    boolEntry "persistent" flag.persistent ++ boolEntry "hidden" flag.hidden

/-- The entries of a command that stand before its nested commands. -/
def CommandFields.toEntries (command : CommandFields) : List (String × Value) :=
  [("use", .text command.useLine)] ++
    listEntry "aliases" (command.aliases.map .text) ++
    [("short", .text command.summary)] ++ textEntry "long" command.details ++
    (match command.args with
      | some args => [("args", args.toValue)]
      | none => []) ++
    textEntry "run_func" command.handler ++
    listEntry "flags" (command.flags.map FlagDecl.toValue)

mutual

/-- A command as a value. -/
def CommandDecl.toValue : CommandDecl → Value
  | ⟨fields, commands⟩ =>
    .map <| fields.toEntries ++ mapEntry "commands" (commandEntries commands) ++
      boolEntry "hidden" fields.hidden

/-- A map of commands as entries. -/
def commandEntries : List (String × CommandDecl) → List (String × Value)
  | [] => []
  | (key, command) :: rest => (key, command.toValue) :: commandEntries rest

end

/-- A tool as a value. -/
def ToolDecl.toValue (tool : ToolDecl) : Value :=
  .map <| [("name", .text tool.name)] ++ textEntry "description" tool.description ++
    textEntry "version" tool.version ++ [("root", tool.root.toValue)] ++
    mapEntry "commands" (commandEntries tool.commands)

/-! ### Reading -/

/-- A text, empty when missing. -/
def readText (entries : List (String × Value)) (key : String) : Option String :=
  match field? key entries with
  | none => some ""
  | some (.text s) => some s
  | some _ => none

/-- A 64-bit integer, zero when missing. -/
def readInt (entries : List (String × Value)) (key : String) : Option Int :=
  match field? key entries with
  | none => some 0
  | some (.int n) => if Text.inInt64 n then some n else none
  | some _ => none

/-- A mark, not set when missing. -/
def readBool (entries : List (String × Value)) (key : String) : Option Bool :=
  match field? key entries with
  | none => some false
  | some (.bool b) => some b
  | some _ => none

/-- A list, empty when missing, with each item read by `item`. -/
def readList (item : Value → Option α) (entries : List (String × Value)) (key : String) :
    Option (List α) :=
  match field? key entries with
  | none => some []
  | some (.list items) => items.mapM item
  | some _ => none

/-- A value that is a text. -/
def Value.asText : Value → Option String
  | .text s => some s
  | _ => none

/-- The argument rule that a value holds. -/
def ArgsDecl.ofValue? : Value → Option ArgsDecl
  | .map entries => do
    return {
      kind := ← readText entries "type"
      count := ← readInt entries "count"
      min := ← readInt entries "min"
      max := ← readInt entries "max" }
  | _ => .none

/-- The flag that a value holds. -/
def FlagDecl.ofValue? : Value → Option FlagDecl
  | .map entries => do
    return {
      name := ← readText entries "name"
      shorthand := ← readText entries "shorthand"
      kind := ← readText entries "type"
      defaultText := ← readText entries "default"
      usage := ← readText entries "usage"
      required := ← readBool entries "required"
      persistent := ← readBool entries "persistent"
      hidden := ← readBool entries "hidden" }
  | _ => none

/-- An argument rule, absent when missing or null. -/
def readArgs (entries : List (String × Value)) (key : String) : Option (Option ArgsDecl) :=
  match field? key entries with
  | none => some none
  | some .null => some none
  | some value => (ArgsDecl.ofValue? value).map some

/-- What a command says of itself, read from its entries. -/
def CommandFields.ofEntries? (entries : List (String × Value)) : Option CommandFields := do
  return {
    useLine := ← readText entries "use"
    aliases := ← readList Value.asText entries "aliases"
    summary := ← readText entries "short"
    details := ← readText entries "long"
    args := ← readArgs entries "args"
    handler := ← readText entries "run_func"
    flags := ← readList FlagDecl.ofValue? entries "flags"
    hidden := ← readBool entries "hidden" }

mutual

/-- The command that a value holds. -/
def CommandDecl.ofValue? : Value → Option CommandDecl
  | .map entries => do
    let fields ← CommandFields.ofEntries? entries
    let commands ← nestedCommands entries
    return ⟨fields, commands⟩
  | _ => none

/-- The commands that stand under the first `commands` key among entries. -/
def nestedCommands : List (String × Value) → Option (List (String × CommandDecl))
  | [] => some []
  | (key, value) :: rest =>
    if key = "commands" then commandMap value else nestedCommands rest

/-- The commands of a map. -/
def commandMap : Value → Option (List (String × CommandDecl))
  | .map entries => commandsOfEntries entries
  | _ => none

/-- The commands of a map's entries, in the order of the keys. -/
def commandsOfEntries : List (String × Value) → Option (List (String × CommandDecl))
  | [] => some []
  | (key, value) :: rest => do
    let command ← CommandDecl.ofValue? value
    let others ← commandsOfEntries rest
    return Keyed.insert key command others

end

/-- A command, empty when missing. -/
def readCommand (entries : List (String × Value)) (key : String) : Option CommandDecl :=
  match field? key entries with
  | none => some {}
  | some value => CommandDecl.ofValue? value

/-- The tool that a value holds. -/
def ToolDecl.ofValue? : Value → Option ToolDecl
  | .map entries => do
    return {
      name := ← readText entries "name"
      description := ← readText entries "description"
      version := ← readText entries "version"
      root := ← readCommand entries "root"
      commands := ← nestedCommands entries }
  | _ => none

end ToolTree
