import ToolTree.Decl.Problem
import ToolTree.Text.Decimal
import ToolTree.Yaml.Node

/-!
Declarations read from YAML documents.

A text field takes the text of any scalar as it is written, whatever it looks like; integers and
marks take plain scalars only. A structure is a map, in which unknown keys are skipped with any
value and a known key may stand once; in a map of commands the last of equal keys counts. An
empty plain scalar, and the missing root of an empty stream, stand for an empty collection.

Two limits hold. Collections may be nested 128 deep, where only collections that are read count;
and only so many aliases may be followed as `Document.aliasLimit` says.
-/

namespace ToolTree.Yaml

/-- A step of reading a document: it may fail, and it counts down the aliases that may still be
followed. -/
abbrev Reading (α : Type) := StateT Nat Option α

namespace Reading

/-- How deep collections may be nested. -/
def depthLimit : Nat := 128

/-- The node itself, or what it stands for as an alias. -/
def follow (d : Document) (node : Node) : Reading Node :=
  match node with
  | .aliasOf number => fun left =>
    match left, d.target? number with
    | left + 1, some target => some (target, left)
    | _, _ => none
  | node => pure node

/-! ### Scalars -/

/-- The text of a scalar. -/
def text (d : Document) (node : Node) : Reading String := do
  match ← follow d node with
  | .scalar _ _ text => return text
  | _ => failure

/-- Whether a scalar may be read as something else than text: a plain one, or a literal one with
the tag of what it is read as. -/
def isOpen (kind : String) (tag : Option Octets) (style : ScalarStyle) : Bool :=
  style == .plain || (style == .literal && tag == some (coreTag kind))

/-- The number that digits write in one of the bases with a mark, without a sign. -/
def basedDigits? : List Char → Option Nat
  | '0' :: 'x' :: digits => Text.digits? 16 Text.hexValue digits
  | '0' :: 'o' :: digits => Text.digits? 8 Text.hexValue digits
  | '0' :: 'b' :: digits => Text.digits? 2 Text.hexValue digits
  | _ => none

/-- Decimal digits; a zero in front is allowed only when it stands alone. -/
def plainDigits? : List Char → Option Nat
  | '0' :: c :: rest => if (c :: rest).all fun d => (Text.decimalValue d).isSome then none
      else Text.natural? ('0' :: c :: rest)
  | digits => Text.natural? digits

/-- The 64-bit integer that a scalar writes: decimal, hexadecimal, octal or binary. -/
def integer? (text : String) : Option Int :=
  let magnitude (cs : List Char) : Option Nat := basedDigits? cs <|> plainDigits? cs
  let signed := match text.toList with
    | '+' :: rest => (magnitude rest).map Int.ofNat
    | '-' :: rest => (magnitude rest).map fun n => -Int.ofNat n
    | rest => (magnitude rest).map Int.ofNat
  signed.filter Text.inInt64

/-- An integer. -/
def int (d : Document) (node : Node) : Reading Int := do
  match ← follow d node with
  | .scalar tag style text =>
    if isOpen "int" tag style then (integer? text : Option Int) else failure
  | _ => failure

/-- The spellings of the two truth values. -/
def bool? (text : String) : Option Bool :=
  if ["true", "True", "TRUE"].contains text then some true
  else if ["false", "False", "FALSE"].contains text then some false
  else none

/-- A truth value. -/
def bool (d : Document) (node : Node) : Reading Bool := do
  match ← follow d node with
  | .scalar tag style text =>
    if isOpen "bool" tag style then (bool? text : Option Bool) else failure
  | _ => failure

/-! ### Collections -/

/-- Whether a scalar stands for an empty collection. -/
def isEmptyScalar (style : ScalarStyle) (text : String) : Bool :=
  style == .plain && text == ""

/-- The items of a list, each read by `item`, which is told how deep it may still go. -/
def list (d : Document) (depth : Nat) (item : Nat → Node → Reading α) (node : Node) :
    Reading (List α) := do
  match ← follow d node with
  | .list items =>
    match depth with
    | 0 => failure
    | depth + 1 => items.mapM (item depth)
  | .scalar _ style text => if isEmptyScalar style text then return [] else failure
  | _ => failure

/-- The entries of a map with the texts of their keys. -/
def keyed (d : Document) (entries : List (Node × Node)) : Reading (List (String × Node)) :=
  entries.mapM fun (key, value) => return (← text d key, value)

/-- The entries of a structure whose known keys are `known`: each may stand once. -/
def structureEntries (d : Document) (known : List String) (entries : List (Node × Node)) :
    Reading (List (String × Node)) := do
  let entries ← keyed d entries
  if known.all fun key => (entries.countP fun e => e.1 == key) ≤ 1 then return entries
  else failure

/-- The value at a key as `read` reads it, or `otherwise` where the key is missing. -/
def field (entries : List (String × Node)) (key : String) (otherwise : α)
    (read : Node → Reading α) : Reading α :=
  match entries.lookup key with
  | none => return otherwise
  | some node => read node

/-- The structure that a map holds, read from its entries; an empty scalar is an empty map. -/
def structured (d : Document) (depth : Nat) (known : List String)
    (read : Nat → List (String × Node) → Reading α) (node : Node) : Reading α := do
  match ← follow d node with
  | .map entries =>
    match depth with
    | 0 => failure
    | depth + 1 => read depth (← structureEntries d known entries)
  | .scalar _ style text => if isEmptyScalar style text then read depth [] else failure
  | _ => failure

/-! ### Argument rules and flags -/

/-- An argument rule. -/
def argsDecl (d : Document) (depth : Nat) : Node → Reading ArgsDecl :=
  structured d depth ["type", "count", "min", "max"] fun _ entries => do
    return {
      kind := ← field entries "type" "" (text d)
      count := ← field entries "count" 0 (int d)
      min := ← field entries "min" 0 (int d)
      max := ← field entries "max" 0 (int d) }

/-- The spellings of no value. -/
def isNull (text : String) : Bool :=
  ["~", "null", "Null", "NULL"].contains text

/-- An argument rule that may be absent: an empty plain scalar or a spelling of no value. With
the tag of no value a scalar must be such a spelling. -/
def optionalArgs (d : Document) (depth : Nat) (node : Node) : Reading (Option ArgsDecl) := do
  let node ← follow d node
  match node with
  | .scalar tag .plain text =>
    match tag with
    | none =>
      if text == "" || isNull text then return none
      else return some (← argsDecl d depth node)
    | some tag =>
      if tag == coreTag "null" then if isNull text then return none else failure
      else return some (← argsDecl d depth node)
  | node => return some (← argsDecl d depth node)

/-- A flag. -/
def flagDecl (d : Document) (depth : Nat) : Node → Reading FlagDecl :=
  structured d depth
    ["name", "shorthand", "type", "default", "usage", "required", "persistent", "hidden"]
    fun _ entries => do
      return {
        name := ← field entries "name" "" (text d)
        shorthand := ← field entries "shorthand" "" (text d)
        kind := ← field entries "type" "" (text d)
        defaultText := ← field entries "default" "" (text d)
        usage := ← field entries "usage" "" (text d)
        required := ← field entries "required" false (bool d)
        persistent := ← field entries "persistent" false (bool d)
        hidden := ← field entries "hidden" false (bool d) }

/-! ### Commands and tools -/

/-- What a command says of itself. -/
def commandFields (d : Document) (depth : Nat) (entries : List (String × Node)) :
    Reading CommandFields := do
  return {
    useLine := ← field entries "use" "" (text d)
    aliases := ← field entries "aliases" [] (list d depth fun _ => text d)
    summary := ← field entries "short" "" (text d)
    details := ← field entries "long" "" (text d)
    args := ← field entries "args" none (optionalArgs d depth)
    handler := ← field entries "run_func" "" (text d)
    flags := ← field entries "flags" [] (list d depth (flagDecl d))
    hidden := ← field entries "hidden" false (bool d) }

/-- The known keys of a command. -/
def commandKeys : List String :=
  ["use", "aliases", "short", "long", "args", "run_func", "flags", "commands", "hidden"]

mutual

/-- A command, when collections may be nested `depth` deep. -/
def commandDecl (d : Document) (depth : Nat) (node : Node) : Reading CommandDecl := do
  match ← follow d node with
  | .map entries =>
    match depth with
    | 0 => failure
    | depth + 1 =>
      let entries ← structureEntries d commandKeys entries
      let fields ← commandFields d depth entries
      let commands ← match entries.lookup "commands" with
        | none => pure []
        | some node => commandMap d depth node
      return ⟨fields, commands⟩
  | .scalar _ style text => if isEmptyScalar style text then return {} else failure
  | _ => failure

/-- A map of commands. -/
def commandMap (d : Document) (depth : Nat) (node : Node) :
    Reading (List (String × CommandDecl)) := do
  match ← follow d node with
  | .map entries =>
    match depth with
    | 0 => failure
    | depth + 1 =>
      let pairs ← entries.mapM fun (key, value) =>
        return (← text d key, ← commandDecl d depth value)
      return Keyed.ofList pairs
  | .scalar _ style text => if isEmptyScalar style text then return [] else failure
  | _ => failure

end

/-- A tool. -/
def toolDecl (d : Document) : Node → Reading ToolDecl :=
  structured d depthLimit ["name", "description", "version", "root", "commands"]
    fun depth entries => do
      return {
        name := ← field entries "name" "" (text d)
        description := ← field entries "description" "" (text d)
        version := ← field entries "version" "" (text d)
        root := ← field entries "root" {} (commandDecl d depth)
        commands := ← field entries "commands" [] (commandMap d depth) }

end Reading

/-- The tool that a document declares; an empty stream declares an empty tool. -/
def Document.toolDecl? (d : Document) : Option ToolDecl :=
  match d.root with
  | none => some {}
  | some root => ((Reading.toolDecl d root).run d.aliasLimit).map Prod.fst

end ToolTree.Yaml

namespace ToolTree

/-- Why a text does not give a valid tool. -/
inductive ReadError where
  | malformed
  | invalid (problems : List Problem)
  deriving DecidableEq, Repr

/-- The tool that a YAML text declares, valid or not. -/
def ToolDecl.ofYaml? (text : String) : Option ToolDecl := do
  (← Yaml.document? text).toolDecl?

/-- A tool without problems, else its problems. -/
def ToolDecl.validated (tool : ToolDecl) : Except ReadError ToolDecl :=
  if tool.problems.isEmpty then .ok tool else .error (.invalid tool.problems)

/-- The valid tool that a YAML text declares. -/
def ToolDecl.ofYaml (text : String) : Except ReadError ToolDecl :=
  match ofYaml? text with
  | none => .error .malformed
  | some tool => tool.validated

end ToolTree
