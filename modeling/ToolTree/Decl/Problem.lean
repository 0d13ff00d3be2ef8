import ToolTree.Decl.Basic

/-!
What can be wrong with a declaration.

`ToolDecl.problems` lists every problem in one pass: the tool's own first, then those of the
root, then those of each command in key order, a command before the commands below it. A
command is identified by the chain of its keys joined with slashes, and the root by `root`.
A declaration without problems is valid.
-/

namespace ToolTree

/-- A flag in a message: by name, or by position when it has none. -/
inductive FlagRef where
  | named (name : String)
  | index (position : Nat)
  deriving DecidableEq, Repr

namespace FlagRef

/-- The reference to a flag that stands at a position. -/
def of (flag : FlagDecl) (position : Nat) : FlagRef :=
  if flag.name = "" then .index position else .named flag.name

/-- A name between quotes, which are not escaped inside it, or a position after a hash. -/
def display : FlagRef → String
  | .named name => "\"" ++ name ++ "\""
  | .index position => s!"#{position}"

end FlagRef

/-- A single problem of a declaration. -/
inductive Problem where
  | missingToolName
  | missingUse (path : String)
  | missingShort (path : String)
  | rootSubcommands (path : String)
  | invalidArgsType (path found : String)
  | exactCountTooSmall (path : String)
  | negativeMin (path : String) (kind : ArityKind)
  | maxTooSmall (path : String) (kind : ArityKind)
  | invertedRange (path : String) (min max : Int)
  | missingFlagName (path : String) (flag : FlagRef)
  | missingFlagType (path : String) (flag : FlagRef)
  | missingFlagUsage (path : String) (flag : FlagRef)
  | invalidFlagType (path : String) (flag : FlagRef) (found : String)
  | invalidShorthand (path : String) (flag : FlagRef) (shorthand : String)
  | duplicateFlagName (path name : String)
  | duplicateShorthand (path shorthand : String)
  | duplicateRootCommand (name : String)
  | duplicateSubcommand (path name : String)
  deriving DecidableEq, Repr

namespace Problem

/-- How a message names a command. -/
def commandRef (path : String) : String :=
  "command \"" ++ path ++ "\""

/-- How a message names a flag of a command. -/
def flagPlace (path : String) (flag : FlagRef) : String :=
  commandRef path ++ ", flag " ++ flag.display

/-- The text of a problem. -/
def message : Problem → String
  | missingToolName => "tool config: name is required"
  | missingUse path => commandRef path ++ ": use is required"
  | missingShort path => commandRef path ++ ": short description is required"
  | rootSubcommands path =>
    commandRef path ++ ": nested commands belong in the top-level commands map"
  | invalidArgsType path found =>
    commandRef path ++ ": invalid args type \"" ++ found ++ "\" (must be one of: " ++
      String.intercalate ", " (ArityKind.all.map ArityKind.spelling) ++ ")"
  | exactCountTooSmall path => commandRef path ++ ": args type 'exact' requires count >= 1"
  | negativeMin path kind =>
    commandRef path ++ s!": args type '{kind.spelling}' requires min >= 0"
  | maxTooSmall path kind =>
    commandRef path ++ s!": args type '{kind.spelling}' requires max >= 1"
  | invertedRange path min max =>
    commandRef path ++
      s!": args type 'range' requires min <= max (got min={min}, max={max})"
  | missingFlagName path flag => flagPlace path flag ++ ": name is required"
  | missingFlagType path flag => flagPlace path flag ++ ": type is required"
  | missingFlagUsage path flag => flagPlace path flag ++ ": usage is required"
  | invalidFlagType path flag found =>
    flagPlace path flag ++ ": invalid type \"" ++ found ++ "\" (must be one of: " ++
      String.intercalate ", " (FlagKind.all.map FlagKind.spelling) ++ ")"
  | invalidShorthand path flag shorthand =>
    flagPlace path flag ++ ": shorthand \"" ++ shorthand ++ "\" must be a single character"
  | duplicateFlagName path name =>
    commandRef path ++ ": duplicate flag name \"" ++ name ++ "\""
  | duplicateShorthand path shorthand =>
    commandRef path ++ ": duplicate flag shorthand \"" ++ shorthand ++ "\""
  | duplicateRootCommand name =>
    "duplicate command name \"" ++ name ++ "\" at root level"
  | duplicateSubcommand path name =>
    commandRef path ++ ": duplicate subcommand name \"" ++ name ++ "\""

/-- All problems under a heading that counts them, one a line. -/
def report (problems : List Problem) : String :=
  s!"validation failed with {problems.length} error(s):\n" ++
    String.join (problems.map fun p => "  - " ++ p.message ++ "\n")

end Problem

/-! ### The problems of one command -/

/-- The problems of a rule on positional words. A rule without a kind has none, and only the
bounds that the kind uses are looked at. -/
def ArgsDecl.problems (args : ArgsDecl) (path : String) : List Problem :=
  match args.arityKind with
  | .error _ => [.invalidArgsType path args.kind]
  | .ok .none => []
  | .ok (some .none) => []
  | .ok (some .any) => []
  | .ok (some .exact) => if args.count < 1 then [.exactCountTooSmall path] else []
  | .ok (some .min) => if args.min < 0 then [.negativeMin path .min] else []
  | .ok (some .max) => if args.max < 1 then [.maxTooSmall path .max] else []
  | .ok (some .range) =>
    (if args.min < 0 then [.negativeMin path .range] else []) ++
      (if args.max < 1 then [.maxTooSmall path .range] else []) ++
      (if args.min > args.max then [.invertedRange path args.min args.max] else [])

/-- The problems of one flag on its own. -/
def FlagDecl.problems (flag : FlagDecl) (path : String) (ref : FlagRef) : List Problem :=
  (if flag.name = "" then [.missingFlagName path ref] else []) ++
    (if flag.kind = "" then [.missingFlagType path ref]
      else if flag.flagKind.isOk then []
      else [.invalidFlagType path ref flag.kind]) ++
    (if flag.usage = "" then [.missingFlagUsage path ref] else []) ++
    (if flag.shorthand ≠ "" ∧ flag.shortChar? = none
      then [.invalidShorthand path ref flag.shorthand] else [])

/-- The problems of each flag on its own, in order. -/
def flagProblems (path : String) (flags : List FlagDecl) : List Problem :=
  flags.zipIdx.flatMap fun (flag, position) => flag.problems path (.of flag position)

/-- The flags that reuse a name or a shorthand, each reuse once, when the names and shorthands
of the flags before them are `names` and `shorthands`. Empty texts are never reused. -/
def reuseProblems (path : String) (names shorthands : List String) :
    List FlagDecl → List Problem
  | [] => []
  | flag :: rest =>
    (if flag.name ≠ "" ∧ flag.name ∈ names then [.duplicateFlagName path flag.name] else []) ++
      (if flag.shorthand ≠ "" ∧ flag.shorthand ∈ shorthands
        then [.duplicateShorthand path flag.shorthand] else []) ++
      reuseProblems path (flag.name :: names) (flag.shorthand :: shorthands) rest

/-- The problems of a command, those of the commands below it apart. -/
def CommandFields.problems (command : CommandFields) (path : String) : List Problem :=
  (if command.useLine = "" then [.missingUse path] else []) ++
    (if command.summary = "" then [.missingShort path] else []) ++
    (match command.args with
      | some args => args.problems path
      | none => []) ++
    flagProblems path command.flags ++
    reuseProblems path [] [] command.flags

/-! ### The problems of a tree -/

mutual

/-- The problems of a command and of all commands below it. -/
def CommandDecl.problems (path : String) : CommandDecl → List Problem
  | ⟨fields, commands⟩ =>
    fields.problems path ++
      siblingProblems (.duplicateSubcommand path) (fun key => path ++ "/" ++ key) [] commands

/-- The problems of commands that stand side by side, when the commands before them have the
names `taken`. `clash` is the problem of a name that is taken. -/
def siblingProblems (clash : String → Problem) (pathOf : String → String)
    (taken : List String) : List (String × CommandDecl) → List Problem
  | [] => []
  | (key, command) :: rest =>
    (if command.nameOr key ∈ taken then [clash (command.nameOr key)] else []) ++
      command.problems (pathOf key) ++
      siblingProblems clash pathOf (command.nameOr key :: taken) rest

end

/-- The path of the root command. -/
def rootPath : String := "root"

/-- Every problem of a tool. -/
def ToolDecl.problems (tool : ToolDecl) : List Problem :=
  (if tool.name = "" then [.missingToolName] else []) ++
    tool.root.toCommandFields.problems rootPath ++
    (if tool.root.commands.isEmpty then [] else [.rootSubcommands rootPath]) ++
    siblingProblems .duplicateRootCommand id [] tool.commands

/-- A tool is valid when it has no problem. -/
def ToolDecl.Valid (tool : ToolDecl) : Prop :=
  tool.problems = []

instance (tool : ToolDecl) : Decidable tool.Valid :=
  inferInstanceAs (Decidable (tool.problems = []))

end ToolTree
