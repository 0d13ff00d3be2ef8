/-!
The value types of flags.
-/

namespace ToolTree

/-- The value types that a flag can declare. -/
inductive FlagKind where
  | string
  | bool
  | int
  | stringSlice
  deriving DecidableEq, Repr

/-- A type word that names no value type. -/
structure UnknownFlagKind where
  found : String
  deriving DecidableEq, Repr

/-- The text of the error. -/
def UnknownFlagKind.message (e : UnknownFlagKind) : String :=
  s!"unsupported flag type: {e.found}"

namespace FlagKind

/-- All value types, in the order of the documentation. -/
def all : List FlagKind :=
  [.string, .bool, .int, .stringSlice]

/-- The word for a value type in a declaration. -/
def spelling : FlagKind → String
  | .string => "string"
  | .bool => "bool"
  | .int => "int"
  | .stringSlice => "stringSlice"

/-- The value type that a word spells. -/
def ofSpelling (word : String) : Except UnknownFlagKind FlagKind :=
  match all.find? fun kind => kind.spelling == word with
  | some kind => .ok kind
  | none => .error ⟨word⟩

theorem ofSpelling_spelling (kind : FlagKind) : ofSpelling kind.spelling = .ok kind := by
  cases kind <;> rfl

end FlagKind

end ToolTree
