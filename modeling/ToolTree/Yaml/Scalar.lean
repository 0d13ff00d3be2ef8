import ToolTree.Text.Decimal
import ToolTree.Yaml.Place

/-!
The scalars of YAML: plain, quoted and block text.

Each reader takes the input behind the opening mark, if there is one, and gives the text of the
scalar with the input after it; a malformed scalar has none. The readers recurse on the input,
one character at a time.
-/

namespace ToolTree.Yaml

/-- The way a scalar is written. -/
inductive ScalarStyle where
  | plain
  | singleQuoted
  | doubleQuoted
  | literal
  | folded
  deriving DecidableEq, Repr

/-! ### Plain scalars -/

/-- A plain scalar: its text, whether the gap after it goes over the end of a line, and the
input after that gap. -/
structure PlainScalar where
  text : List Char
  broken : Bool
  rest : Input

/-- Puts characters before a plain scalar. -/
def PlainScalar.prepend (cs : List Char) (s : PlainScalar) : PlainScalar :=
  { s with text := cs ++ s.text }

/-- Whether a plain scalar cannot go on here after a gap: at too little indentation, at a
comment, or at the mark of a document. -/
def plainStops (flow : Bool) (indent : Int) (c : Located) (rest : Input) : Bool :=
  (!flow && (c.column : Int) < indent) || c.char == '#' || atDocumentMark (c :: rest)

/-- Whether a plain scalar ends at this character wherever it stands: at a colon before a gap,
or, in a flow collection, at an indicator. -/
def plainEnds (flow : Bool) (c : Char) (rest : Input) : Bool :=
  (c == ':' && atGap rest) ||
    (flow && (c == ',' || c == '[' || c == ']' || c == '\x7b' || c == '\x7d'))

/-- In a flow collection a colon may not stand right before an indicator. -/
def plainRefused (flow : Bool) (c : Char) (rest : Input) : Bool :=
  flow && c == ':' && nextIs (fun d => d == ',' || d == '?' || d == '[' || d == ']' ||
    d == '\x7b' || d == '\x7d') rest

/-- Reads a plain scalar that has `gap` in front. `indent` is the least column of its lines. -/
def plainScalar (flow : Bool) (indent : Int) (gap : Gap) : Input → Option PlainScalar
  | [] => some ⟨[], gap.isBroken, []⟩
  | c :: rest =>
    if isSpace c.char then
      if gap.isBroken && (c.column : Int) < indent && c.char == '\t' then none
      else plainScalar flow indent (gap.push c.char) rest
    else if isBreak c.char then plainScalar flow indent (gap.push c.char) rest
    else if !gap.chars.isEmpty && plainStops flow indent c rest then
      some ⟨[], gap.isBroken, c :: rest⟩
    else if plainRefused flow c.char rest then none
    else if plainEnds flow c.char rest then some ⟨[], gap.isBroken, c :: rest⟩
    else (plainScalar flow indent {} rest).map (·.prepend (gap.fold ++ [c.char]))

/-! ### Quoted scalars -/

/-- The character that a letter after a backslash stands for. -/
def escapeChar? : Char → Option Char
  | '0' => some '\x00'
  | 'a' => some '\x07'
  | 'b' => some '\x08'
  | 't' => some '\t'
  | '\t' => some '\t'
  | 'n' => some '\n'
  | 'v' => some '\x0b'
  | 'f' => some '\x0c'
  | 'r' => some '\r'
  | 'e' => some '\x1b'
  | ' ' => some ' '
  | '"' => some '"'
  | '/' => some '/'
  | '\\' => some '\\'
  | 'N' => some '\u0085'
  | '_' => some '\u00a0'
  | 'L' => some '\u2028'
  | 'P' => some '\u2029'
  | _ => none

/-- The number of hexadecimal digits after a letter that follows a backslash. -/
def escapeWidth? : Char → Option Nat
  | 'x' => some 2
  | 'u' => some 4
  | 'U' => some 8
  | _ => none

/-- The character of a code point; a surrogate, or a number that is too large, has none. -/
def charOfCode? (n : Nat) : Option Char :=
  if n.isValidChar then some (Char.ofNat n) else none

/-- A text with the input after it. -/
abbrev TextAndRest := List Char × Input

/-- Puts characters before a text. -/
def prepend (cs : List Char) (t : TextAndRest) : TextAndRest :=
  (cs ++ t.1, t.2)

mutual

/-- Reads a double-quoted scalar that has `gap` in front, up to its closing quote. -/
def doubleQuoted (gap : Gap) : Input → Option TextAndRest
  | [] => none
  | c :: rest =>
    if isGap c.char then doubleQuoted (gap.push c.char) rest
    else if atDocumentMark (c :: rest) then none
    else if c.char == '"' then some (gap.fold, rest)
    else if c.char == '\\' then
      match rest with
      | [] => none
      | e :: rest =>
        if isBreak e.char then (doubleQuoted { escaped := true } rest).map (prepend gap.fold)
        else
          match escapeChar? e.char, escapeWidth? e.char with
          | some d, _ => (doubleQuoted {} rest).map (prepend (gap.fold ++ [d]))
          | none, some width => (escapedCode width 0 rest).map (prepend gap.fold)
          | none, none => none
    else (doubleQuoted {} rest).map (prepend (gap.fold ++ [c.char]))

/-- Reads the hexadecimal digits of an escaped character, `left` of them, after digits that are
worth `value`, and then the rest of the scalar. -/
def escapedCode (left value : Nat) : Input → Option TextAndRest
  | [] => none
  | c :: rest =>
    match Text.hexValue c.char with
    | none => none
    | some d =>
      if left ≤ 1 then
        match charOfCode? (value * 16 + d) with
        | some x => (doubleQuoted {} rest).map (prepend [x])
        | none => none
      else escapedCode (left - 1) (value * 16 + d) rest

end

/-- Reads a single-quoted scalar that has `gap` in front, up to its closing quote. -/
def singleQuoted (gap : Gap) : Input → Option TextAndRest
  | [] => none
  | c :: rest =>
    if isGap c.char then singleQuoted (gap.push c.char) rest
    else if atDocumentMark (c :: rest) then none
    else if c.char == '\'' then
      match rest with
      | d :: rest' =>
        if d.char == '\'' then (singleQuoted {} rest').map (prepend (gap.fold ++ ['\'']))
        else some (gap.fold, rest)
      | [] => some (gap.fold, [])
    else (singleQuoted {} rest).map (prepend (gap.fold ++ [c.char]))

/-! ### Block scalars -/

/-- What becomes of the ends of lines after the last line of a block scalar. -/
inductive Chomping where
  | strip
  | clip
  | keep
  deriving DecidableEq, Repr

/-- The marks behind the indicator of a block scalar: chomping, and the indentation if given. -/
structure BlockHeader where
  chomping : Chomping := .clip
  increment : Option Nat := none

/-- The chomping that a sign stands for. -/
def chomping? : Char → Option Chomping
  | '+' => some .keep
  | '-' => some .strip
  | _ => none

/-- The digit of an indentation mark, if it is one; zero is refused. -/
def increment? (c : Char) : Option (Option Nat) :=
  match Text.decimalValue c with
  | some 0 => none
  | some n => some (some n)
  | none => some none

/-- Reads an indentation digit, if there is one. -/
def takeIncrement : Input → Option (Option Nat × Input)
  | [] => some (none, [])
  | c :: rest =>
    match increment? c.char with
    | none => none
    | some none => some (none, c :: rest)
    | some (some n) => some (some n, rest)

/-- Reads a chomping sign, if there is one. -/
def takeChomping : Input → Option Chomping × Input
  | [] => (none, [])
  | c :: rest =>
    match chomping? c.char with
    | some x => (some x, rest)
    | none => (none, c :: rest)

/-- Reads the marks of a block scalar, in either order, and the rest of their line, which may
hold a comment only. -/
def blockHeader (input : Input) : Option (BlockHeader × Input) := do
  let (first, input) := takeChomping input
  let (increment, input) ← takeIncrement input
  let (second, input) :=
    if first.isNone && increment.isSome then takeChomping input else (none, input)
  let input := skipComment input
  if atBreak input then
    some (⟨(first <|> second).getD .clip, increment⟩, input.drop 1)
  else none

/-- The greatest column reached by the spaces of the blank lines in front and of the first line
that is not blank. A tab among these spaces is refused. -/
def leadingColumn (most : Nat) : Input → Option Nat
  | [] => some most
  | c :: rest =>
    if c.char == ' ' then leadingColumn (max most (c.column + 1)) rest
    else if c.char == '\t' then none
    else if isBreak c.char then leadingColumn (max most c.column) rest
    else some (max most c.column)

/-- Where the reader of a block scalar stands: within a line or between lines, after the end of
a line `lead` and the ends of blank lines `trail` (last one first). `blank` tells whether the
last line began with a space. -/
structure BlockState where
  inLine : Bool := false
  lead : List Char := []
  trail : List Char := []
  blank : Bool := false

/-- What stands between the last line and the next one: in folded text one end of a line
between two lines that begin with no space becomes a space, or vanishes before blank lines. -/
def BlockState.join (s : BlockState) (folded blank : Bool) : List Char :=
  if folded && s.lead == ['\n'] && !s.blank && !blank then
    (if s.trail.isEmpty then [' '] else []) ++ s.trail.reverse
  else s.lead ++ s.trail.reverse

/-- What the ends of lines at the end of a block scalar stand for. -/
def BlockState.close (s : BlockState) : Chomping → List Char
  | .strip => []
  | .clip => s.lead
  | .keep => s.lead ++ s.trail.reverse

/-- Reads the lines of a block scalar that stand at column `indent` or more. -/
def blockLines (folded : Bool) (chomping : Chomping) (indent : Nat) (s : BlockState) :
    Input → Option TextAndRest
  | [] => some (s.close chomping, [])
  | c :: rest =>
    if s.inLine then
      if isBreak c.char then
        blockLines folded chomping indent { s with inLine := false, lead := [c.char] } rest
      else (blockLines folded chomping indent s rest).map (prepend [c.char])
    else if c.column < indent && c.char == ' ' then blockLines folded chomping indent s rest
    else if c.column < indent && c.char == '\t' then none
    else if isBreak c.char then
      blockLines folded chomping indent { s with trail := c.char :: s.trail } rest
    else if c.column == indent then
      let blank := isSpace c.char
      (blockLines folded chomping indent { inLine := true, blank } rest).map
        (prepend (s.join folded blank ++ [c.char]))
    else some (s.close chomping, c :: rest)

/-- Reads a block scalar behind its indicator, within a block at column `parent` (−1 outside all
blocks). Without an indentation mark the first line that is not blank sets the indentation, which
is at least one more than the parent's. -/
def blockScalar (folded : Bool) (parent : Int) (input : Input) : Option TextAndRest := do
  let (header, input) ← blockHeader input
  let indent ← match header.increment with
    | some n => some ((max parent 0).toNat + n)
    | none => (leadingColumn 0 input).map fun n => max n (max (parent + 1).toNat 1)
  blockLines folded header.chomping indent {} input

end ToolTree.Yaml
