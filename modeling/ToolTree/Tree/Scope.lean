import ToolTree.Tree.Node

/-!
The flags that a command sees while its tree is built.

A scope maps the names of flags to their types and short forms to the flags that own them, and
lists the flags that are both persistent and required. A flag may join only if neither its name
nor its short form is taken.
-/

namespace ToolTree

/-- The name of the argument that takes the positional words. -/
def wordsName : String :=
  "__args"

/-- Flags in sight. -/
structure Scope where
  names : List (String × FlagKind) := []
  shorts : List (Char × String) := []
  required : List String := []
  deriving DecidableEq, Repr

namespace Scope

/-- The flag that owns a short form. -/
def owner? (scope : Scope) (short : Char) : Option String :=
  (scope.shorts.find? fun entry => entry.1 == short).map Prod.snd

/-- What a flag with a name and perhaps a short form would clash with. -/
def conflict? (scope : Scope) (name : String) (short? : Option Char) : Option String :=
  if name = wordsName ∨ (Keyed.find? name scope.names).isSome then some s!"--{name}"
  else short?.bind fun short =>
    (scope.owner? short).map fun owner => s!"-{String.ofList [short]} (--{owner})"

/-- The scope with one more flag. -/
def claim (scope : Scope) (name : String) (kind : FlagKind) (short? : Option Char) : Scope :=
  { scope with
    names := Keyed.insert name kind scope.names
    shorts := (short?.toList.map fun short => (short, name)) ++ scope.shorts }

/-- The scope that the commands below see, once a flag joins the command's own scope. -/
def handDown (scope : Scope) (flag : FlagDecl) (kind : FlagKind) (short? : Option Char) : Scope :=
  if flag.persistent then
    let scope := scope.claim flag.name kind short?
    { scope with
      required := scope.required ++ (if flag.required then [flag.name] else []) }
  else scope

end Scope

end ToolTree
