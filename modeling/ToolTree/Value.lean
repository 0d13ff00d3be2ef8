/-!
Plain structured values: what a declaration is written to and read from when no particular
text format is meant.
-/

namespace ToolTree

/-- A structured value. Maps keep their entries in order. -/
inductive Value where
  | null
  | bool (b : Bool)
  | int (n : Int)
  | text (s : String)
  | list (items : List Value)
  | map (entries : List (String × Value))
  deriving Repr, Inhabited

namespace Value

/-- The value of an entry. -/
def field? (key : String) : List (String × Value) → Option Value
  | [] => none
  | (k, v) :: rest => if k = key then some v else field? key rest

end Value

end ToolTree
