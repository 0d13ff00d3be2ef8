import ToolTree.Yaml.Scalar

/-!
Tags of YAML.

A tag is a sequence of octets, since octets may be written in hexadecimal behind a percent sign
and need not be the encoding of any text: only how many octets belong together is checked. An
octet zero ends a tag, so what stands behind it says nothing. A tag is written in full between
angle brackets, or as a handle, which stands for the beginning of the tag, and a suffix.
-/

namespace ToolTree.Yaml

/-- The octets of a tag, or of a part of one. -/
abbrev Octets := List UInt8

/-- The octets of ASCII characters. -/
def octets (cs : List Char) : Octets :=
  cs.map fun c => UInt8.ofNat c.toNat

/-- The octets before the first octet zero. -/
def beforeZero (o : Octets) : Octets :=
  o.takeWhile (· != 0)

/-- The tag of a kind of scalar that YAML itself knows. -/
def coreTag (kind : String) : Octets :=
  octets ("tag:yaml.org,2002:" ++ kind).toList

/-! ### Percent-encoded octets -/

/-- How many octets belong to the same character behind a first octet. -/
def followers? (octet : Nat) : Option Nat :=
  if octet < 0x80 then some 0
  else if octet / 0x20 == 6 then some 1
  else if octet / 0x10 == 14 then some 2
  else if octet / 8 == 30 then some 3
  else none

/-- How many octets are due after one more octet, when `due` were due before it. -/
def dueAfter? (due octet : Nat) : Option Nat :=
  match due with
  | 0 => followers? octet
  | left + 1 => if octet / 0x40 == 2 then some left else none

/-! ### Reading -/

/-- The punctuation that a tag may hold; `verbatim` tags may hold flow indicators too. -/
def isAddressMark (verbatim : Bool) (c : Char) : Bool :=
  ";/?:@&=+$.!~*'()".toList.contains c || (verbatim && (c == ',' || c == '[' || c == ']'))

/-- Reads the octets of a tag, where `due` octets of a percent-encoded character are due. -/
def address (verbatim : Bool) (due : Nat) : Input → Option (Octets × Input)
  | [] => if due = 0 then some ([], []) else none
  | c :: rest =>
    if c.char == '%' then
      match rest with
      | a :: b :: rest =>
        match Text.hexValue a.char, Text.hexValue b.char with
        | some x, some y =>
          let octet := x * 16 + y
          match dueAfter? due octet with
          | none => none
          | some due => (address verbatim due rest).map fun (more, rest) =>
              (UInt8.ofNat octet :: more, rest)
        | _, _ => none
      | _ => none
    else if due ≠ 0 then none
    else if isWord c.char || isAddressMark verbatim c.char then
      (address verbatim 0 rest).map fun (more, rest) => (octets [c.char] ++ more, rest)
    else some ([], c :: rest)

/-- Reads octets of a tag, of which there must be one. -/
def someAddress (verbatim : Bool) (input : Input) : Option (Octets × Input) := do
  let (read, rest) ← address verbatim 0 input
  if read.isEmpty then none else some (beforeZero read, rest)

/-- Reads a tag handle: an exclamation mark, word characters, and an exclamation mark if one
follows. -/
def tagHandle : Input → Option TextAndRest
  | [] => none
  | c :: rest =>
    if c.char == '!' then
      let (word, rest) := takeWord rest
      match rest with
      | d :: rest' => if d.char == '!' then some ('!' :: word ++ ['!'], rest')
        else some ('!' :: word, rest)
      | [] => some ('!' :: word, [])
    else none

/-- Whether a handle is more than one exclamation mark and ends with one. -/
def isFullHandle (handle : List Char) : Bool :=
  handle.length > 1 && handle.getLast? == some '!'

/-- A tag as it is written: a tag in angle brackets has an empty handle, and so has the lone
exclamation mark. -/
structure WrittenTag where
  handle : String
  suffix : Octets
  deriving DecidableEq, Repr

/-- Reads a tag, from its exclamation mark on. -/
def writtenTag (input : Input) : Option (WrittenTag × Input) := do
  if nextIs (· == '<') (input.drop 1) then
    let (suffix, rest) ← someAddress true (input.drop 2)
    if nextIs (· == '>') rest then some (⟨"", suffix⟩, rest.drop 1) else none
  else
    let (handle, rest) ← tagHandle input
    if isFullHandle handle then
      let (suffix, rest) ← someAddress false rest
      some (⟨String.ofList handle, suffix⟩, rest)
    else
      let (read, rest) ← address false 0 rest
      let suffix := beforeZero (octets (handle.drop 1) ++ read)
      if suffix.isEmpty then some (⟨"", octets ['!']⟩, rest) else some (⟨"!", suffix⟩, rest)

end ToolTree.Yaml
