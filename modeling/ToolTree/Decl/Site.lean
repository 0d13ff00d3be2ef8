import ToolTree.Decl.Basic

/-!
The commands of a tool in the order in which everything walks them: the root first, then each
tree of commands in key order, a command before the commands below it.

A site is a command with its path: the names from the root down, joined with spaces. What the
root itself declares below it is no part of the walk.
-/

namespace ToolTree

/-- A command at a path. -/
structure Site where
  path : String
  command : CommandFields
  deriving DecidableEq, Repr

/-- The path of a command below another. -/
def childPath (parent name : String) : String :=
  parent ++ " " ++ name

mutual

/-- The sites of a command and of those below it. -/
def CommandDecl.sites (path : String) : CommandDecl → List Site
  | ⟨fields, commands⟩ => ⟨path, fields⟩ :: sitesBelow path commands

/-- The sites of commands that stand below a path. -/
def sitesBelow (parent : String) : List (String × CommandDecl) → List Site
  | [] => []
  | (key, command) :: rest =>
    command.sites (childPath parent (command.nameOr key)) ++ sitesBelow parent rest

end

/-- The sites of a tool. -/
def ToolDecl.sites (tool : ToolDecl) : List Site :=
  ⟨tool.rootName, tool.root.toCommandFields⟩ :: sitesBelow tool.rootName tool.commands

end ToolTree
