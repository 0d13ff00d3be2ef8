import ToolTree.CommandLine.Grammar
import ToolTree.Decl.Basic
import ToolTree.Tree.Registry

/-!
Built trees of commands.

A tree has two sides that are built together: the grammar that lines are read against, and the
nodes that say what a selected command does. A node keeps the commands below it under their
canonical names, in order.
-/

namespace ToolTree

/-- A function that a command is bound to, with the name it is registered under. -/
structure Binding where
  name : String
  handler : Handler

/-- What a command does when it is selected, without the commands below it. -/
structure NodeFields where
  path : String
  arity : Arity
  binding? : Option Binding
  /-- The flags that the command sees, in order of their names. -/
  flags : List (String × FlagKind)
  /-- The persistent flags that must be on the line, those from above first. -/
  requiredFlags : List String

/-- A command and those below it. -/
structure Node extends NodeFields where
  children : List (String × Node)

namespace Node

mutual

/-- The number of commands in the tree of a node. -/
def count : Node → Nat
  | ⟨_, children⟩ => 1 + countAll children

/-- The number of commands in the trees of a map of nodes. -/
def countAll : List (String × Node) → Nat
  | [] => 0
  | (_, node) :: rest => node.count + countAll rest

end

mutual

/-- The paths in the tree of a node, its own first. -/
def paths : Node → List String
  | ⟨fields, children⟩ => fields.path :: pathsOf children

/-- The paths in the trees of a map of nodes. -/
def pathsOf : List (String × Node) → List String
  | [] => []
  | (_, node) :: rest => node.paths ++ pathsOf rest

end

end Node

/-- A tool that lines can be run against. -/
structure Tree where
  grammar : CommandLine.Grammar
  root : Node

/-- The paths of all commands, the root first. -/
def Tree.paths (tree : Tree) : List String :=
  tree.root.paths

end ToolTree
