import ToolTree.Decl.Arity
import ToolTree.Decl.FlagKind
import ToolTree.Decl.UseLine
import ToolTree.Keyed

/-!
Declarations of command-line tools.

A tool declares a root command and a map of commands; a command declares flags, a rule on its
positional words, the function that handles it, and commands below it. Words such as a flag's
type stay text here: a declaration may hold anything, and `ToolTree.Decl.Problem` says what is
wrong with it. Maps of commands are lists of pairs in increasing order of their keys.
-/

namespace ToolTree

/-! ### Argument rules -/

/-- A rule on the number of positional words, as written. -/
structure ArgsDecl where
  kind : String := ""
  count : Int := 0
  min : Int := 0
  max : Int := 0
  deriving DecidableEq, Repr, Inhabited

namespace ArgsDecl

/-- No positional word. -/
def none : ArgsDecl :=
  { kind := ArityKind.none.spelling }

/-- Any number of words. -/
def any : ArgsDecl :=
  { kind := ArityKind.any.spelling }

/-- As many words as `count`. -/
def exactly (count : Int) : ArgsDecl :=
  { kind := ArityKind.exact.spelling, count }

/-- At least `min` words. -/
def atLeast (min : Int) : ArgsDecl :=
  { kind := ArityKind.min.spelling, min }

/-- At most `max` words. -/
def atMost (max : Int) : ArgsDecl :=
  { kind := ArityKind.max.spelling, max }

/-- From `min` to `max` words. -/
def between (min max : Int) : ArgsDecl :=
  { kind := ArityKind.range.spelling, min, max }

/-- The kind that the rule names; an empty word names none. -/
def arityKind (args : ArgsDecl) : Except RuleError (Option ArityKind) :=
  if args.kind = "" then .ok .none
  else
    match ArityKind.ofSpelling? args.kind with
    | some kind => .ok (some kind)
    | .none => .error (.unknownType args.kind)

/-- A bound as a natural number. -/
def bound (field : String) (value : Int) : Except RuleError Nat :=
  if value < 0 then .error (.negativeBound field value) else .ok value.toNat

/-- The rule that the declaration resolves to. Without a kind any number is accepted, and only
the bounds that the kind uses are looked at. -/
def arity (args : ArgsDecl) : Except RuleError Arity := do
  match ← args.arityKind with
  | .none => return .any
  | some .none => return .none
  | some .any => return .any
  | some .exact => return .exactly (← bound "count" args.count)
  | some .min => return .atLeast (← bound "min" args.min)
  | some .max => return .atMost (← bound "max" args.max)
  | some .range =>
    let low ← bound "min" args.min
    let high ← bound "max" args.max
    return .between low high

end ArgsDecl

/-! ### Flags -/

/-- A flag, as written. -/
structure FlagDecl where
  name : String := ""
  shorthand : String := ""
  kind : String := ""
  defaultText : String := ""
  usage : String := ""
  required : Bool := false
  persistent : Bool := false
  hidden : Bool := false
  deriving DecidableEq, Repr, Inhabited

namespace FlagDecl

/-- A flag of a value type, with nothing else set. -/
def ofKind (name : String) (kind : FlagKind) (usage : String) : FlagDecl :=
  { name, kind := kind.spelling, usage }

/-- The value type that the flag names. -/
def flagKind (flag : FlagDecl) : Except UnknownFlagKind FlagKind :=
  FlagKind.ofSpelling flag.kind

/-- The shorthand as a character, when it is exactly one. -/
def shortChar? (flag : FlagDecl) : Option Char :=
  match flag.shorthand.toList with
  | [c] => some c
  | _ => none

end FlagDecl

/-! ### Commands -/

/-- What a command says of itself, without the commands below it. -/
structure CommandFields where
  useLine : String := ""
  aliases : List String := []
  summary : String := ""
  details : String := ""
  args : Option ArgsDecl := none
  handler : String := ""
  flags : List FlagDecl := []
  hidden : Bool := false
  deriving DecidableEq, Repr, Inhabited

/-- A command with the commands below it, which are kept under arbitrary keys. -/
structure CommandDecl extends CommandFields where
  commands : List (String × CommandDecl) := []
  deriving Repr

instance : Inhabited CommandDecl := ⟨{}⟩

/-- The name that a use line gives, else the key. -/
def CommandFields.nameOr (command : CommandFields) (key : String) : String :=
  let name := UseLine.name command.useLine
  if name = "" then key else name

/-- The rule on positional words; without a declaration any number is accepted. -/
def CommandFields.arity (command : CommandFields) : Except RuleError Arity :=
  match command.args with
  | some args => args.arity
  | none => .ok .any

namespace CommandDecl

/-- A command with a use line and a summary. -/
def ofUse (useLine summary : String) : CommandDecl :=
  { useLine, summary }

/-- The command with one more flag. -/
def addFlag (command : CommandDecl) (flag : FlagDecl) : CommandDecl :=
  { command with flags := command.flags ++ [flag] }

/-- The command with `child` below it, under `key`. -/
def addCommand (command : CommandDecl) (key : String) (child : CommandDecl) : CommandDecl :=
  { command with commands := Keyed.insert key child command.commands }

mutual

/-- The number of commands in the tree of a command, itself included. -/
def count : CommandDecl → Nat
  | ⟨_, commands⟩ => 1 + countAll commands

/-- The number of commands in the trees of a map of commands. -/
def countAll : List (String × CommandDecl) → Nat
  | [] => 0
  | (_, command) :: rest => command.count + countAll rest

end

end CommandDecl

/-! ### Tools -/

/-- A tool: its root command and the commands below it. -/
structure ToolDecl where
  name : String := ""
  description : String := ""
  version : String := ""
  root : CommandDecl := {}
  commands : List (String × CommandDecl) := []
  deriving Repr

instance : Inhabited ToolDecl := ⟨{}⟩

/-- The name that the root's use line gives, else the tool's name. -/
def ToolDecl.rootName (tool : ToolDecl) : String :=
  tool.root.nameOr tool.name

end ToolTree
