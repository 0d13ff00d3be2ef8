/-!
Characters of a YAML text with their places.

Five characters end a line: line feed, carriage return, next line, line separator and paragraph
separator. `foldBreaks` writes the first three, and a carriage return with a line feed after it,
as a single line feed; the other two stay. `locate` then gives each character its line, its column
and the octets before it on its line, all from zero, so that a rule about indentation or about the
length of a key can look at the character alone.
-/

namespace ToolTree.Yaml

/-- Whether a character ends a line. -/
def isBreak (c : Char) : Bool :=
  c == '\n' || c == '\r' || c == '\u0085' || c == '\u2028' || c == '\u2029'

/-- Space and tab. -/
def isSpace (c : Char) : Bool :=
  c == ' ' || c == '\t'

/-- A space, a tab or the end of a line. -/
def isGap (c : Char) : Bool :=
  isSpace c || isBreak c

/-- The characters of names, anchors and tag handles. -/
def isWord (c : Char) : Bool :=
  ('a' ≤ c && c ≤ 'z') || ('A' ≤ c && c ≤ 'Z') || ('0' ≤ c && c ≤ '9') || c == '_' || c == '-'

/-- The characters that a text may hold: no control characters but tab, the ends of lines and
next line, no surrogates and no last code points of the first plane. -/
def isAllowed (c : Char) : Bool :=
  let n := c.toNat
  n == 0x09 || n == 0x0a || n == 0x0d || (0x20 ≤ n && n ≤ 0x7e) || n == 0x85 ||
    (0xa0 ≤ n && n ≤ 0xd7ff) || (0xe000 ≤ n && n ≤ 0xfffd) || 0x10000 ≤ n

/-- Writes every end of a line as one line feed, apart from the two separators. -/
def foldBreaks : List Char → List Char
  | '\r' :: '\n' :: rest => '\n' :: foldBreaks rest
  | c :: rest => (if c == '\r' || c == '\u0085' then '\n' else c) :: foldBreaks rest
  | [] => []

/-- A character at a line and a column. The offset counts the octets before it on its line. -/
structure Located where
  char : Char
  line : Nat
  column : Nat
  offset : Nat
  deriving DecidableEq, Repr

/-- What is left to read. -/
abbrev Input := List Located

/-- Gives each character its place, from a line, a column and an offset on. -/
def locateFrom (line column offset : Nat) : List Char → Input
  | [] => []
  | c :: rest =>
    ⟨c, line, column, offset⟩ ::
      if isBreak c then locateFrom (line + 1) 0 0 rest
      else locateFrom line (column + 1) (offset + c.utf8Size) rest

/-- Gives each character of a text its place. -/
def locate (cs : List Char) : Input :=
  locateFrom 0 0 0 (foldBreaks cs)

/-! ### Looking ahead -/

/-- Whether the next character satisfies `p`; false at the end. -/
def nextIs (p : Char → Bool) : Input → Bool
  | [] => false
  | c :: _ => p c.char

/-- Whether a gap or the end follows. -/
def atGap : Input → Bool
  | [] => true
  | c :: _ => isGap c.char

/-- Whether the end of a line or the end of the text follows. -/
def atBreak : Input → Bool
  | [] => true
  | c :: _ => isBreak c.char

/-- Whether a character is a byte order mark at the start of a line. Between tokens it is passed
over like a space; anywhere else it is text. -/
def isOrderMark (c : Located) : Bool :=
  c.column == 0 && c.char == '\ufeff'

/-- Whether three dashes or three dots stand at the start of a line, before a gap. -/
def atDocumentMark : Input → Bool
  | a :: b :: c :: rest =>
    a.column == 0 && a.char == b.char && b.char == c.char && (a.char == '-' || a.char == '.') &&
      atGap rest
  | _ => false

/-- Drops spaces and tabs. -/
def skipSpaces (input : Input) : Input :=
  input.dropWhile fun c => isSpace c.char

/-- Drops what is left of the line, its end apart. -/
def skipLine (input : Input) : Input :=
  input.dropWhile fun c => !isBreak c.char

/-- Drops spaces and a comment after them. -/
def skipComment (input : Input) : Input :=
  let rest := skipSpaces input
  if nextIs (· == '#') rest then skipLine rest else rest

/-- Splits off the word characters in front. -/
def takeWord (input : Input) : List Char × Input :=
  ((input.takeWhile fun c => isWord c.char).map Located.char,
    input.dropWhile fun c => isWord c.char)

/-! ### Gaps in a scalar -/

/-- The spaces and ends of lines that stand between two parts of a scalar, last one first. An
`escaped` gap began with a backslash at the end of a line. -/
structure Gap where
  escaped : Bool := false
  chars : List Char := []

namespace Gap

/-- The gap with one more character. -/
def push (gap : Gap) (c : Char) : Gap :=
  { gap with chars := c :: gap.chars }

/-- Whether the gap goes over the end of a line. -/
def isBroken (gap : Gap) : Bool :=
  gap.escaped || gap.chars.any isBreak

/-- What the gap stands for: within a line, itself; over one end of a line, a space; over more,
all ends of lines but the first. A separator in first place is kept, and in an escaped gap only
the ends of lines count. -/
def fold (gap : Gap) : List Char :=
  let breaks := gap.chars.reverse.filter isBreak
  if gap.escaped then breaks
  else
    match breaks with
    | [] => gap.chars.reverse
    | ['\n'] => [' ']
    | '\n' :: others => others
    | all => all

end Gap

end ToolTree.Yaml
