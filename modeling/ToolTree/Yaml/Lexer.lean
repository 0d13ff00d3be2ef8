import ToolTree.Yaml.Token

/-!
From the characters of a YAML text to its tokens.

The lexer keeps the columns of the open block collections and, for each open flow collection and
the block around them, the place where a key may have begun. A colon behind such a place puts
the key token, and the start of a block map if the column asks for one, before what was read
there. A key must end on its line, within 1024 octets.

One step of the lexer reads one written token; every step but the last reads at least one
character, so as many steps as there are characters, and one more, read a text.
-/

namespace ToolTree.Yaml

/-- A place where a key may have begun: its line, column and offset, the number of tokens before
it, and whether it must turn out to be a key. -/
structure PossibleKey where
  required : Bool
  before : Nat
  line : Nat
  column : Nat
  offset : Nat
  deriving DecidableEq, Repr

/-- The state of the lexer. `tokens` holds the last token first, `columns` the columns of the
open block collections, the innermost first. `outerKeys` has one entry for each open flow
collection. -/
structure Lexer where
  input : Input
  tokens : List Token := []
  columns : List Nat := []
  possibleKey : Option PossibleKey := none
  outerKeys : List (Option PossibleKey) := []
  keyAllowed : Bool := true
  deriving Repr

namespace Lexer

/-- Whether a flow collection is open. -/
def inFlow (s : Lexer) : Bool :=
  !s.outerKeys.isEmpty

/-- The column of the innermost block collection, −1 outside all. -/
def indent (s : Lexer) : Int :=
  match s.columns with
  | [] => -1
  | column :: _ => column

/-- Adds a token. -/
def emit (s : Lexer) (token : Token) : Lexer :=
  { s with tokens := token :: s.tokens }

/-- Puts a token behind the first `before` tokens. -/
def insert (s : Lexer) (before : Nat) (token : Token) : Lexer :=
  { s with tokens := s.tokens.insertIdx (s.tokens.length - before) token }

/-! ### Block collections -/

/-- Opens a block collection at a column that is beyond the innermost one, with its token behind
the first `before` tokens. Nothing is opened in a flow collection. -/
def openBlock (s : Lexer) (column before : Nat) (token : Token) : Lexer :=
  if !s.inFlow && s.indent < (column : Int) then
    { s.insert before token with columns := column :: s.columns }
  else s

/-- Opens a block collection here. -/
def openBlockHere (s : Lexer) (column : Nat) (token : Token) : Lexer :=
  s.openBlock column s.tokens.length token

/-- Closes the block collections whose column is beyond `column`. -/
def closeColumns (column : Int) (tokens : List Token) : List Nat → List Token × List Nat
  | [] => (tokens, [])
  | c :: columns =>
    if (c : Int) > column then closeColumns column (.blockEnd :: tokens) columns
    else (tokens, c :: columns)

/-- Closes the block collections whose column is beyond `column`; none in a flow collection. -/
def closeBlocks (s : Lexer) (column : Int) : Lexer :=
  if s.inFlow then s
  else
    let (tokens, columns) := closeColumns column s.tokens s.columns
    { s with tokens, columns }

/-! ### Possible keys -/

/-- Gives up a possible key; one that is required makes the text malformed. -/
def dropKey (key : Option PossibleKey) : Option (Option PossibleKey) :=
  match key with
  | none => some none
  | some key => if key.required then none else some none

/-- Gives up a possible key that began on another line or too far left of `c`. -/
def dropStaleKey (c : Located) (key : Option PossibleKey) : Option (Option PossibleKey) :=
  match key with
  | none => some none
  | some k =>
    if k.line < c.line || k.offset + 1024 < c.offset then dropKey key else some key

/-- Gives up all stale keys. -/
def dropStaleKeys (s : Lexer) (c : Located) : Option Lexer := do
  let possibleKey ← dropStaleKey c s.possibleKey
  let outerKeys ← s.outerKeys.mapM (dropStaleKey c)
  return { s with possibleKey, outerKeys }

/-- Gives up the possible key of the innermost collection. -/
def giveUpKey (s : Lexer) : Option Lexer := do
  return { s with possibleKey := ← dropKey s.possibleKey }

/-- Notes that a key may begin at `c`, if one is allowed here. -/
def noteKey (s : Lexer) (c : Located) : Option Lexer :=
  if s.keyAllowed then do
    let s ← s.giveUpKey
    return { s with possibleKey := some {
      required := !s.inFlow && s.indent == (c.column : Int)
      before := s.tokens.length
      line := c.line
      column := c.column
      offset := c.offset } }
  else some s

/-! ### Reading one token -/

/-- Skips spaces, comments, ends of lines and a byte order mark that begins a line. In block text a
new line allows a key, and a tab counts as space only where no key is allowed. -/
def skipGap (flow comment keyAllowed : Bool) : Input → Bool × Input
  | [] => (keyAllowed, [])
  | c :: rest =>
    if isBreak c.char then skipGap flow false (keyAllowed || !flow) rest
    else if comment then skipGap flow true keyAllowed rest
    else if isOrderMark c then skipGap flow false keyAllowed rest
    else if c.char == ' ' || (c.char == '\t' && (flow || !keyAllowed)) then
      skipGap flow false keyAllowed rest
    else if c.char == '#' then skipGap flow true keyAllowed rest
    else (keyAllowed, c :: rest)

/-- Ends the text: closes all blocks. -/
def finish (s : Lexer) : Option Lexer :=
  (s.closeBlocks (-1)).giveUpKey

/-- Reads a mark that ends all blocks: a directive or the mark of a document. -/
def fetchDocumentPart (s : Lexer) (token : Token) (rest : Input) : Option Lexer := do
  let s ← (s.closeBlocks (-1)).giveUpKey
  return { s with keyAllowed := false, input := rest }.emit token

/-- Opens a flow collection. -/
def fetchFlowStart (s : Lexer) (c : Located) (rest : Input) (token : Token) : Option Lexer := do
  let s ← s.noteKey c
  return { s with
    outerKeys := s.possibleKey :: s.outerKeys
    possibleKey := none
    keyAllowed := true
    input := rest }.emit token

/-- Closes a flow collection; without one open, the token alone is read. -/
def fetchFlowEnd (s : Lexer) (rest : Input) (token : Token) : Option Lexer := do
  let s ← s.giveUpKey
  let s := match s.outerKeys with
    | [] => s
    | key :: outerKeys => { s with possibleKey := key, outerKeys }
  return { s with keyAllowed := false, input := rest }.emit token

/-- Reads a comma in a flow collection. -/
def fetchFlowEntry (s : Lexer) (rest : Input) : Option Lexer := do
  let s ← s.giveUpKey
  return { s with keyAllowed := true, input := rest }.emit .flowEntry

/-- Reads the dash of a list entry. -/
def fetchBlockEntry (s : Lexer) (c : Located) (rest : Input) : Option Lexer := do
  let s ← if s.inFlow then some s
    else if s.keyAllowed then some (s.openBlockHere c.column .blockListStart)
    else none
  let s ← s.giveUpKey
  return { s with keyAllowed := true, input := rest }.emit .blockEntry

/-- Reads the question mark of a key. -/
def fetchKey (s : Lexer) (c : Located) (rest : Input) : Option Lexer := do
  let s ← if s.inFlow then some s
    else if s.keyAllowed then some (s.openBlockHere c.column .blockMapStart)
    else none
  let s ← s.giveUpKey
  return { s with keyAllowed := !s.inFlow, input := rest }.emit .key

/-- Reads the colon of a value. -/
def fetchValue (s : Lexer) (c : Located) (rest : Input) : Option Lexer := do
  let s ← match s.possibleKey with
    | some key =>
      let s := (s.insert key.before .key).openBlock key.column key.before .blockMapStart
      some { s with possibleKey := none, keyAllowed := false }
    | none =>
      if s.inFlow then some { s with keyAllowed := false }
      else if s.keyAllowed then some (s.openBlockHere c.column .blockMapStart)
      else none
  return { s with input := rest }.emit .value

/-- Reads a token that may begin a key and after which none may begin: `result` is the token
and the input after it. -/
def fetchPart (s : Lexer) (c : Located) (result : Option (Token × Input)) : Option Lexer := do
  let s ← s.noteKey c
  let (token, rest) ← result
  return { s with keyAllowed := false, input := rest }.emit token

/-- Reads a block scalar. -/
def fetchBlockScalar (s : Lexer) (style : ScalarStyle) (rest : Input) : Option Lexer := do
  let s ← s.giveUpKey
  let (text, rest) ← blockScalar (style == .folded) s.indent rest
  return { s with keyAllowed := true, input := rest }.emit (.scalar style (String.ofList text))

/-- Reads a plain scalar. A key may follow it when it ends beyond its line. -/
def fetchPlain (s : Lexer) (c : Located) (rest : Input) : Option Lexer := do
  let s ← s.noteKey c
  let scalar ← plainScalar s.inFlow (s.indent + 1) {} (c :: rest)
  return { s with keyAllowed := scalar.broken, input := scalar.rest }.emit
    (.scalar .plain (String.ofList scalar.text))

/-- A token of a quoted scalar. -/
def quotedToken (style : ScalarStyle) (t : TextAndRest) : Token × Input :=
  (.scalar style (String.ofList t.1), t.2)

/-- The indicators, which begin no plain scalar. -/
def isIndicator (c : Char) : Bool :=
  "-?:,[]\x7b\x7d#&*!|>'\"%@\x60".toList.contains c

/-- Whether a plain scalar begins here: at no indicator, or at a dash, a question mark or a
colon with no gap behind it. -/
def beginsPlain (flow : Bool) (c : Char) (rest : Input) : Bool :=
  !(isGap c || isIndicator c) || (c == '-' && !nextIs isSpace rest) ||
    (!flow && (c == '?' || c == ':') && !atGap rest)

/-- Reads the token that begins with `c`. -/
def fetch (s : Lexer) (c : Located) (rest : Input) : Option Lexer :=
  let flow := s.inFlow
  if c.column == 0 && c.char == '%' then do
    let (token, rest) ← directive rest
    s.fetchDocumentPart token rest
  else if atDocumentMark (c :: rest) then
    s.fetchDocumentPart (if c.char == '-' then .documentStart else .documentEnd) (rest.drop 2)
  else
    match c.char with
    | '[' => s.fetchFlowStart c rest .flowListStart
    | '\x7b' => s.fetchFlowStart c rest .flowMapStart
    | ']' => s.fetchFlowEnd rest .flowListEnd
    | '\x7d' => s.fetchFlowEnd rest .flowMapEnd
    | ',' => s.fetchFlowEntry rest
    | '*' => s.fetchPart c ((anchorName rest).map fun (name, rest) => (.aliasOf name, rest))
    | '&' => s.fetchPart c ((anchorName rest).map fun (name, rest) => (.anchor name, rest))
    | '!' => s.fetchPart c (tagToken flow (c :: rest))
    | '\'' => s.fetchPart c ((singleQuoted {} rest).map (quotedToken .singleQuoted))
    | '"' => s.fetchPart c ((doubleQuoted {} rest).map (quotedToken .doubleQuoted))
    | ch =>
      if ch == '-' && atGap rest then s.fetchBlockEntry c rest
      else if ch == '?' && (flow || atGap rest) then s.fetchKey c rest
      else if ch == ':' && (flow || atGap rest) then s.fetchValue c rest
      else if ch == '|' && !flow then s.fetchBlockScalar .literal rest
      else if ch == '>' && !flow then s.fetchBlockScalar .folded rest
      else if beginsPlain flow ch rest then s.fetchPlain c rest
      else none

/-- Reads one token. The second part tells whether the text has ended. -/
def step (s : Lexer) : Option (Lexer × Bool) :=
  let (keyAllowed, input) := skipGap s.inFlow false s.keyAllowed s.input
  let s := { s with keyAllowed, input }
  match input with
  | [] => s.finish.map (·, true)
  | c :: rest => do
    let s ← s.dropStaleKeys c
    let s ← (s.closeBlocks c.column).fetch c rest
    return (s, false)

/-- Takes up to so many steps. -/
def run : Nat → Lexer → Option Lexer
  | 0, _ => none
  | n + 1, s =>
    match s.step with
    | none => none
    | some (s, true) => some s
    | some (s, false) => run n s

end Lexer

/-- The tokens of a text; a text with a character that is not allowed, or with a malformed
token, has none. -/
def tokens? (cs : List Char) : Option (List Token) :=
  if cs.all isAllowed then
    let input := locate cs
    (Lexer.run (input.length + 1) { input }).map fun s => s.tokens.reverse
  else none

end ToolTree.Yaml
