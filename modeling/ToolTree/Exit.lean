/-!
How a program ends: its exit code and what it wrote.
-/

namespace ToolTree

/-- The end of a program. -/
structure Exit where
  code : Nat := 0
  stdout : String := ""
  stderr : String := ""
  deriving DecidableEq, Repr

/-- The end of a program that fails with a message. -/
def Exit.failure (message : String) : Exit :=
  { code := 1, stderr := "error: " ++ message ++ "\n" }

end ToolTree
