import ToolTree.CommandLine.Matching
import ToolTree.Text.Styled
import ToolTree.Text.Visible

/-!
Usage lines.

A usage line names a command by its path and lists what may follow: optional flags as one
word, each required flag, the words and the commands below. The path starts with the file name
of the program; between a command and the one above it stand the flags that the upper one
requires. Usage lines are styled text.
-/

namespace ToolTree.CommandLine

/-- Words with single spaces between them. -/
def spaced (words : List String) : String :=
  String.intercalate " " words

namespace Argument

/-- How the value of a flag follows its name. -/
def valueText (arg : Argument) : String :=
  match arg.flagType? with
  | none => ""
  | some type => if type.kind = .bool then s!"[=<{arg.name}>]" else s!" <{arg.name}>"

/-- A named argument in full. -/
def longText (arg : Argument) : String :=
  s!"--{arg.name}{arg.valueText}"

/-- A named argument in full, with its name in the style of what is typed. -/
def styledText (arg : Argument) : String :=
  Text.literal s!"--{arg.name}" ++ arg.valueText

/-- Whether the usage line tells of the argument by the word for optional flags. -/
def isOptional (arg : Argument) : Bool :=
  arg.flagType?.isSome && arg.name != "help" && arg.name != "version" && !arg.hidden &&
    !arg.required

end Argument

/-- How the positional words are shown. -/
def wordsText : String :=
  "[ARGS]..."

namespace View

/-- The flags that a line for the command must have. -/
def requiredTexts (view : View) : List String :=
  (view.arguments.filter Argument.required).map Argument.styledText

/-- Whether there is a command below to tell of. A command called `help` is not counted. -/
def showsCommands (view : View) : Bool :=
  view.grammar.subcommands.any fun child => !child.hidden && child.name != helpName

/-- What a usage line says after the path. -/
def usageWords (view : View) : List String :=
  (if view.arguments.any Argument.isOptional then ["[OPTIONS]"] else []) ++
    view.requiredTexts ++
    (view.arguments.filter fun arg => !arg.isNamed && !arg.hidden).map (fun _ => wordsText) ++
    (if view.showsCommands then ["[COMMAND]"] else [])

/-- The usage of a command that is shown under a path. -/
def usage (view : View) (path : String) : String :=
  Text.trimEnd <|
    match view.grammar.usage? with
    | some text => text
    | none =>
      (if path = "" then "" else Text.literal path) ++
        String.join (view.usageWords.map fun word => " " ++ word)

/-- The usage of a command under its heading. -/
def titledUsage (view : View) (path : String) : String :=
  Text.heading "Usage:" ++ " " ++ view.usage path

end View

/-- The path of the last of the views from a root down, for a program with a file name, if it
has one. -/
def usagePath (file? : Option String) (root : View) (below : List View) : String :=
  match below.getLast? with
  | none => file?.getD root.grammar.name
  | some leaf =>
    let parent := (root :: below.dropLast).getLast (List.cons_ne_nil _ _)
    let above := file?.toList ++ below.dropLast.map (·.grammar.name)
    if above.isEmpty then leaf.grammar.name
    else
      spaced (spaced above :: parent.requiredTexts.map Text.visible ++ [leaf.grammar.name])

/-- The file name in the first word of a line: its last component that is not a lone dot,
unless that climbs up. -/
def fileName? (word : String) : Option String :=
  match ((Text.splitAt '/' word).filter fun part => part != "" && part != ".").getLast? with
  | none => none
  | some part => if part = ".." then none else some part

/-- The usage of a command that is looked at without a line. -/
def Grammar.usageText (grammar : Grammar) : String :=
  Text.visible ((View.ofRoot grammar).titledUsage grammar.name)

end ToolTree.CommandLine
