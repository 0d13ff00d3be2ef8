import ToolTree.Yaml.Tag

/-!
The tokens of YAML, and the readers of those that are written with a mark of their own:
directives, anchors and tags.
-/

namespace ToolTree.Yaml

/-- The tokens. Starts and ends of block collections are not written but follow from
indentation. -/
inductive Token where
  | versionDirective (major minor : Nat)
  | tagDirective (handle : String) (address : Octets)
  | documentStart
  | documentEnd
  | blockListStart
  | blockMapStart
  | blockEnd
  | flowListStart
  | flowListEnd
  | flowMapStart
  | flowMapEnd
  | blockEntry
  | flowEntry
  | key
  | value
  | aliasOf (name : String)
  | anchor (name : String)
  | tag (tag : WrittenTag)
  | scalar (style : ScalarStyle) (text : String)
  deriving DecidableEq, Repr

/-! ### Anchors and aliases -/

/-- Reads the name of an anchor or an alias, which a gap or an indicator must follow. -/
def anchorName (input : Input) : Option (String × Input) :=
  let (name, rest) := takeWord input
  let ended := atGap rest || nextIs (fun c => c == '?' || c == ':' || c == ',' || c == ']' ||
    c == '\x7d' || c == '%' || c == '@' || c == '\x60') rest
  if name.isEmpty || !ended then none else some (String.ofList name, rest)

/-! ### Tags -/

/-- Reads a tag token; a gap must follow it, or a comma in a flow collection. -/
def tagToken (flow : Bool) (input : Input) : Option (Token × Input) := do
  let (tag, rest) ← writtenTag input
  if atGap rest || (flow && nextIs (· == ',') rest) then some (.tag tag, rest) else none

/-! ### Directives -/

/-- Reads a version number of at most nine digits. -/
def versionNumber (input : Input) : Option (Nat × Input) := do
  let digits := (input.takeWhile fun c => (Text.decimalValue c.char).isSome).map Located.char
  if digits.length > 9 then none
  else return (← Text.natural? digits, input.drop digits.length)

/-- Reads the rest of a version directive. -/
def versionDirective (input : Input) : Option (Token × Input) := do
  let (major, rest) ← versionNumber (skipSpaces input)
  if !nextIs (· == '.') rest then none
  else
    let (minor, rest) ← versionNumber (rest.drop 1)
    return (.versionDirective major minor, rest)

/-- Reads the rest of a tag directive: a handle and an address with spaces between. -/
def tagDirective (input : Input) : Option (Token × Input) := do
  let (handle, rest) ← tagHandle (skipSpaces input)
  if handle != ['!'] && !isFullHandle handle then none
  else if !nextIs isSpace rest then none
  else
    let (beginning, rest) ← someAddress true (skipSpaces rest)
    if atGap rest then return (.tagDirective (String.ofList handle) beginning, rest) else none

/-- Reads a directive behind its percent sign, with the end of its line. -/
def directive (input : Input) : Option (Token × Input) := do
  let (name, rest) := takeWord input
  if !atGap rest then none
  else
    let (token, rest) ←
      if name == "YAML".toList then versionDirective rest
      else if name == "TAG".toList then tagDirective rest
      else none
    let rest := skipComment rest
    if atBreak rest then return (token, rest.drop 1) else none

end ToolTree.Yaml
