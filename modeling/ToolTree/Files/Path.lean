import ToolTree.Text.Lines

/-!
Paths as texts.

A path is an anchor and pieces between slashes. Empty pieces and lone dots name nothing and are
passed over, except that a dot at the very start is kept. A path keeps its text as it was
written, so nothing is cleaned before it is shown.

The system holds paths as octets. The paths here are those whose octets are of a text; what is
spelled for other octets is `Text.lossy`.
-/

namespace ToolTree.Files

/-- Where a path starts: at the root, at a dot that is written out, or at neither. -/
inductive Anchor where
  | root
  | here
  | none
  deriving DecidableEq, Repr

/-- The text of an anchor. -/
def Anchor.text : Anchor → String
  | .root => "/"
  | .here => "."
  | .none => ""

/-- A path. -/
structure Path where
  anchor : Anchor
  pieces : List String
  deriving DecidableEq, Repr

namespace Path

/-- The path that a text spells. -/
def ofText (text : String) : Path :=
  match text.toList with
  | '/' :: rest => ⟨.root, Text.splitAt '/' (String.ofList rest)⟩
  | ['.'] => ⟨.here, []⟩
  | '.' :: '/' :: rest => ⟨.here, Text.splitAt '/' (String.ofList ('/' :: rest))⟩
  | cs => ⟨.none, Text.splitAt '/' (String.ofList cs)⟩

/-- The text of a path. -/
def text (path : Path) : String :=
  path.anchor.text ++ String.intercalate "/" path.pieces

/-- Whether a piece names something. -/
def isName (piece : String) : Bool :=
  piece != "" && piece != "."

/-- The names of a path in order, its anchor before them if it has one. -/
def components (path : Path) : List String :=
  (match path.anchor with
    | .root => ["/"]
    | .here => ["."]
    | .none => []) ++ path.pieces.filter isName

/-- Pieces without those at the end that name nothing. -/
def trimmed (pieces : List String) : List String :=
  (pieces.reverse.dropWhile fun piece => !isName piece).reverse

/-- The path without its last component. A root has none. -/
def parent? (path : Path) : Option Path :=
  match trimmed path.pieces, path.anchor with
  | [], .here => some ⟨.none, []⟩
  | [], _ => none
  | piece :: rest, anchor => some ⟨anchor, trimmed (piece :: rest).dropLast⟩

/-- The last name of a path, unless that climbs up. -/
def fileName? (path : Path) : Option String :=
  (trimmed path.pieces).getLast?.filter (· != "..")

/-- A path that is followed from another; one from the root is taken alone. -/
def join (base : Path) (name : String) : Path :=
  if name.toList.head? = some '/' ∨ base.text = "" then ofText name
  else if base.text.toList.getLast? = some '/' then ofText (base.text ++ name)
  else ofText (base.text ++ "/" ++ name)

/-! ### Parents are shorter -/

theorem length_trimmed_le (pieces : List String) :
    (trimmed pieces).length ≤ pieces.length := by
  have h := List.Sublist.length_le
    (List.dropWhile_sublist (fun piece => !isName piece) (l := pieces.reverse))
  simpa [trimmed] using h

/-- The size of a path, which the parent's is smaller than. -/
def size (path : Path) : Nat :=
  path.pieces.length + if path.anchor = .here then 1 else 0

theorem size_parent?_lt {path parent : Path} (h : path.parent? = some parent) :
    parent.size < path.size := by
  obtain ⟨anchor, pieces⟩ := path
  simp only [parent?] at h
  have hle := length_trimmed_le pieces
  split at h
  · simp only [Option.some.injEq] at h
    subst h
    simp [size]
  · simp at h
  · rename_i piece rest heq
    simp only [Option.some.injEq] at h
    subst h
    rw [heq] at hle
    have hle' := length_trimmed_le (piece :: rest).dropLast
    simp only [List.length_dropLast, List.length_cons] at hle' hle
    simp only [size]
    omega

end Path

end ToolTree.Files
