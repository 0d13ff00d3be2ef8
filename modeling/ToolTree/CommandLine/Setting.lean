import ToolTree.CommandLine.Grammar
import ToolTree.Text.Decimal
import ToolTree.Text.Lines

/-!
The values that flags have on a line.

A setting is a value with its origin: written on the line, or the default of the flag. Along a
chain of commands the deepest setting counts, except that a default never hides what was
written on the line above it.
-/

namespace ToolTree.CommandLine

/-- The ways in which a line can be refused, and the two requests that end the reading of a
line. -/
inductive UsageError where
  | displayHelp
  | displayVersion (name version : String)
  | unknownArgument
  | tooManyValues
  | invalidValue
  | invalidNumber
  | repeatedFlag
  | missingRequired
  | unknownSubcommand
  deriving DecidableEq, Repr

/-- Where a setting comes from. -/
inductive Origin where
  | default
  | line
  deriving DecidableEq, Repr

/-- The values of a flag. Text flags and lists of texts are kept alike. -/
inductive Payload where
  | texts (values : List String)
  | bool (value : Bool)
  | int (value : Int)
  deriving DecidableEq, Repr

/-- What a flag is set to. -/
structure Setting where
  origin : Origin
  payload : Payload
  deriving DecidableEq, Repr

/-- What a flag is set to when a line does not give it. -/
def FlagType.default? : FlagType → Option Setting
  | .string default? => default?.map fun text => ⟨.default, .texts [text]⟩
  | .bool default => some ⟨.default, .bool default⟩
  | .int default? => default?.map fun n => ⟨.default, .int n⟩
  | .stringSlice => none

/-- The value that a text on the line denotes. A list is cut at every comma. -/
def FlagType.payload (type : FlagType) (text : String) : Except UsageError Payload :=
  match type with
  | .string _ => .ok (.texts [text])
  | .bool _ =>
    if text = "true" then .ok (.bool true)
    else if text = "false" then .ok (.bool false)
    else .error .invalidValue
  | .int _ =>
    match Text.integer? text with
    | some n => .ok (.int n)
    | none => .error .invalidNumber
  | .stringSlice => .ok (.texts (Text.splitAt ',' text))

/-- The settings of one command, in order of the flags' names. -/
abbrev Settings :=
  List (String × Setting)

namespace Settings

/-- Records a value from the line. Lists grow with each value; any other flag may have one. -/
def store (settings : Settings) (name : String) (type : FlagType) (text : String) :
    Except UsageError Settings :=
  match Keyed.find? name settings with
  | none => do return Keyed.insert name ⟨.line, ← type.payload text⟩ settings
  | some earlier =>
    match type, earlier.payload with
    | .stringSlice, .texts values =>
      .ok (Keyed.insert name ⟨.line, .texts (values ++ Text.splitAt ',' text)⟩ settings)
    | _, _ => .error .repeatedFlag

/-- The settings with the defaults of the flags that have none yet. -/
def withDefaults (settings : Settings) (arguments : List Argument) : Settings :=
  arguments.foldl (fun acc arg =>
    match arg.flagType?.bind FlagType.default?, Keyed.find? arg.name acc with
    | some setting, none => Keyed.insert arg.name setting acc
    | _, _ => acc) settings

end Settings

/-- The setting that counts of two on a chain of commands. -/
def Setting.deeper (outer inner : Option Setting) : Option Setting :=
  match outer, inner with
  | some ⟨.line, payload⟩, some ⟨.default, _⟩ => some ⟨.line, payload⟩
  | outer, none => outer
  | _, inner => inner

end ToolTree.CommandLine
