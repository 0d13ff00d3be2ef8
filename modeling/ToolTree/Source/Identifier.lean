import ToolTree.Text.Case
import ToolTree.Text.Lines

/-!
Identifiers of the generated source, which is Rust.

A word that is no keyword and consists of ASCII letters, digits and underscores, not starting
with a digit and not a lone underscore, is an identifier. A keyword becomes one with `r#` in
front, apart from four that cannot be written so. Local names are made from arbitrary text by
`freshName`, which never gives a name twice.
-/

namespace ToolTree.Source

/-- The keywords of the generated language, strict and reserved. -/
def keywords : List String := [
  "abstract", "as", "async", "await", "become", "box", "break", "const", "continue", "crate",
  "do", "dyn", "else", "enum", "extern", "false", "final", "fn", "for", "gen", "if", "impl",
  "in", "let", "loop", "macro", "match", "mod", "move", "mut", "override", "priv", "pub",
  "ref", "return", "self", "Self", "static", "struct", "super", "trait", "true", "try", "type",
  "typeof", "unsafe", "unsized", "use", "virtual", "where", "while", "yield"]

/-- The keywords that cannot be written with `r#` in front. -/
def barredKeywords : List String :=
  ["crate", "self", "Self", "super"]

/-- Whether a word is a keyword. -/
def isKeyword (word : String) : Bool :=
  keywords.contains word

/-- An ASCII letter. -/
def isLetter (c : Char) : Bool :=
  ('a' ≤ c && c ≤ 'z') || ('A' ≤ c && c ≤ 'Z')

/-- An ASCII digit. -/
def isDigit (c : Char) : Bool :=
  '0' ≤ c && c ≤ '9'

/-- The characters of identifiers. -/
def isNameChar (c : Char) : Bool :=
  isLetter c || isDigit c || c == '_'

/-- Whether a text consists of the characters of identifiers and does not start with a digit. -/
def isPlainName : List Char → Bool
  | [] => false
  | c :: rest => (isLetter c || c == '_') && rest.all isNameChar

/-- Whether a word is an identifier as it stands. -/
def isIdentifier (word : String) : Bool :=
  isPlainName word.toList && word != "_" && !isKeyword word

/-- The name of a function as the source writes it; a text that cannot be one has none. -/
def functionName? (name : String) : Option String :=
  if barredKeywords.contains name then none
  else if isKeyword name then some ("r#" ++ name)
  else if isIdentifier name then some name
  else none

/-! ### Camel case -/

/-- A piece of a name with its first character mapped. -/
def mapFirst (f : Char → List Char) : List Char → List Char
  | [] => []
  | c :: rest => f c ++ rest

/-- A name cut at dashes and underscores, its pieces joined with each piece but the first
capitalised and the first in lower case. Only the first character of a piece changes. -/
def camelCase (name : String) : String :=
  match (Text.pieces (fun c => c == '-' || c == '_') name.toList).filter (!·.isEmpty) with
  | [] => ""
  | first :: rest =>
    String.ofList (mapFirst Text.lowerChar first ++ rest.flatMap (mapFirst Text.upperChar))

/-! ### Local names -/

/-- A text made into an identifier: other characters become underscores, an empty text `value`;
an underscore goes before a leading digit, and keywords are made distinct from themselves. -/
def sanitize (base : String) : String :=
  let chars := base.toList.map fun c => if isNameChar c then c else '_'
  let chars := if chars = [] ∨ chars = ['_'] then "value".toList else chars
  let chars := match chars with
    | c :: rest => if isDigit c then '_' :: c :: rest else c :: rest
    | [] => []
  let name := String.ofList chars
  if barredKeywords.contains name then name ++ "_"
  else if isKeyword name then "r#" ++ name
  else name

/-- The name without the mark of a raw identifier in front. -/
def dropRaw (name : String) : String :=
  match name.toList with
  | 'r' :: '#' :: rest => String.ofList rest
  | _ => name

/-- The numbered forms of a name, from 2 on, as many as are needed to find one that is not among
`count` names. -/
def numbered (base : String) (count : Nat) : List String :=
  (List.range (count + 1)).map fun n => base ++ toString (n + 2)

/-- A name that is not taken: the text as an identifier, else with the least number from 2 on
behind it. -/
def freshName (taken : List String) (base : String) : String :=
  let name := sanitize base
  if name ∈ taken then
    ((numbered (dropRaw name) taken.length).find? fun n => n ∉ taken).getD ""
  else name

/-- A fresh name for each text, in order. -/
def freshNames (taken : List String) : List String → List String
  | [] => []
  | base :: rest =>
    let name := freshName taken base
    name :: freshNames (name :: taken) rest

end ToolTree.Source
