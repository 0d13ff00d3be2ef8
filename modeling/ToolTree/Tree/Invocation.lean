import ToolTree.CommandLine.Matching

/-!
What a handler is given: the path of the command that was called, the flags that the command
sees, and what they are set to.

A flag is read by an accessor of its declared type. A flag that is not set reads as the zero
value of its type. Reading a flag that the command does not see, or by the accessor of another
type, is an error.
-/

namespace ToolTree

/-- The invocation of a command. -/
structure Invocation where
  path : String
  /-- The flags that the command sees, in order of their names. -/
  flags : List (String × FlagKind)
  /-- What a name is set to. -/
  setting? : String → Option CommandLine.Setting

/-- Why a flag cannot be read. -/
inductive FlagError where
  | unknown (path flag : String)
  | typeMismatch (flag : String) (declared requested : FlagKind)
  /-- The setting under the name of the flag holds values of another type. -/
  | lookup (flag : String) (found requested : String)
  deriving DecidableEq, Repr

/-- The text of the error. -/
def FlagError.message : FlagError → String
  | .unknown path flag => s!"command \"{path}\" has no flag \"{flag}\""
  | .typeMismatch flag declared requested =>
    s!"flag \"{flag}\" is of type {declared.spelling}, not {requested.spelling}"
  | .lookup flag found requested =>
    s!"flag \"{flag}\": Could not downcast to {requested}, need to downcast to {found}\n"

/-- The name for the type of stored values. -/
def CommandLine.Payload.typeName : CommandLine.Payload → String
  | .texts _ => "alloc::string::String"
  | .bool _ => "bool"
  | .int _ => "i64"

namespace Invocation

open CommandLine (Payload)

/-- The name of the command: what follows the last space of the path. -/
def commandName (call : Invocation) : String :=
  String.ofList (call.path.toList.reverse.takeWhile (· != ' ')).reverse

/-- The names of the flags that the command sees. -/
def flagNames (call : Invocation) : List String :=
  Keyed.keys call.flags

/-- The declared type of a flag. -/
def kindOf (call : Invocation) (name : String) : Except FlagError FlagKind :=
  match Keyed.find? name call.flags with
  | some kind => .ok kind
  | none => .error (.unknown call.path name)

/-- The values of a flag that is read as one of type `requested`. -/
def payload? (call : Invocation) (name : String) (requested : FlagKind) :
    Except FlagError (Option Payload) := do
  let declared ← call.kindOf name
  if declared = requested then
    return (call.setting? name).map CommandLine.Setting.payload
  else .error (.typeMismatch name declared requested)

/-- The text of a text flag. -/
def getString (call : Invocation) (name : String) : Except FlagError String := do
  match ← call.payload? name .string with
  | none => return ""
  | some (.texts values) => return values.head?.getD ""
  | some other => .error (.lookup name other.typeName (Payload.typeName (.texts [])))

/-- The truth of a bool flag. -/
def getBool (call : Invocation) (name : String) : Except FlagError Bool := do
  match ← call.payload? name .bool with
  | none => return false
  | some (.bool value) => return value
  | some other => .error (.lookup name other.typeName (Payload.typeName (.bool false)))

/-- The number of an int flag. -/
def getInt (call : Invocation) (name : String) : Except FlagError Int := do
  match ← call.payload? name .int with
  | none => return 0
  | some (.int value) => return value
  | some other => .error (.lookup name other.typeName (Payload.typeName (.int 0)))

/-- The texts of a list flag. -/
def getStringSlice (call : Invocation) (name : String) : Except FlagError (List String) := do
  match ← call.payload? name .stringSlice with
  | none => return []
  | some (.texts values) => return values
  | some other => .error (.lookup name other.typeName (Payload.typeName (.texts [])))

/-- Whether the line sets a flag. -/
def isSet (call : Invocation) (name : String) : Except FlagError Bool := do
  let _ ← call.kindOf name
  return (call.setting? name).any fun setting => setting.origin == .line

end Invocation

end ToolTree
