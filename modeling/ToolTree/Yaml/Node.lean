import ToolTree.Yaml.Lexer

/-!
From the tokens of a YAML text to its one document.

A document is a node with a table of the nodes that carry an anchor. An anchor's number is the
number of distinct anchor names before it, and an alias stands for the node that has the number
its name had last, the latest one if a repeated name made a number be used again. Each reader
takes fuel for the depth of its calls; as much as there are tokens, and a little more, is
enough, since of any three calls one inside the other one reads a token.
-/

namespace ToolTree.Yaml

/-- A node of a document. An absent tag is `none`. -/
inductive Node where
  | scalar (tag : Option Octets) (style : ScalarStyle) (text : String)
  | list (items : List Node)
  | map (entries : List (Node × Node))
  | aliasOf (number : Nat)
  deriving Repr, Inhabited

/-- A node that carries an anchor, with its number and its rank among such nodes. -/
structure Anchored where
  number : Nat
  rank : Nat
  node : Node

/-- A document: its root, if it has one, and its anchored nodes. -/
structure Document where
  root : Option Node
  anchored : List Anchored

namespace Node

/-- The node left out where one is due: an empty plain scalar. -/
def empty : Node :=
  .scalar none .plain ""

mutual

/-- The number of marks that write a node: one for a scalar or an alias, and for a collection
one at either end beside those of its parts. -/
def size : Node → Nat
  | .scalar .. => 1
  | .aliasOf _ => 1
  | .list items => 2 + sizeItems items
  | .map entries => 2 + sizeEntries entries

/-- The marks of the items of a list. -/
def sizeItems : List Node → Nat
  | [] => 0
  | node :: rest => node.size + sizeItems rest

/-- The marks of the entries of a map. -/
def sizeEntries : List (Node × Node) → Nat
  | [] => 0
  | (key, value) :: rest => key.size + value.size + sizeEntries rest

end

end Node

/-- What the readers of nodes carry along: the tokens left, the numbers of the anchor names, and
the anchored nodes so far. -/
structure Reader where
  tokens : List Token
  names : List (String × Nat) := []
  ranks : Nat := 0
  anchored : List Anchored := []

/-- A step of reading: it may fail. -/
abbrev Read (α : Type) := StateT Reader Option α

namespace Reader

/-- The next token. -/
def peek : Read (Option Token) :=
  fun r => some (r.tokens.head?, r)

/-- Drops the next token. -/
def skip : Read Unit :=
  fun r => some ((), { r with tokens := r.tokens.drop 1 })

/-- Drops the next token if it is the given one, and tells whether it was. -/
def take (token : Token) : Read Bool := do
  if (← peek) == some token then
    skip
    return true
  else return false

/-- Drops the next token, which must be the given one. -/
def expect (token : Token) : Read Unit := do
  if ← take token then return () else failure

/-- The number that an anchor name has now. -/
def numberOf (name : String) : Read Nat :=
  fun r => (r.names.lookup name).map (·, r)

/-- Gives an anchor its number and its rank. -/
def declare (name : String) : Read (Nat × Nat) :=
  fun r =>
    let number := r.names.length
    let names := (name, number) :: r.names.filter (·.1 != name)
    some ((number, r.ranks), { r with names, ranks := r.ranks + 1 })

/-- Keeps an anchored node. -/
def keep (number rank : Nat) (node : Node) : Read Unit :=
  fun r => some ((), { r with anchored := ⟨number, rank, node⟩ :: r.anchored })

/-! ### Anchors and tags -/

/-- The handles of tags with what they stand for. -/
abbrev Handles := List (String × Octets)

/-- The handles that every document has. -/
def defaultHandles : Handles :=
  [("!", octets ['!']), ("!!", coreTag "")]

/-- The full tag that is written; with an unknown handle there is none. -/
def fullTag? (handles : Handles) (tag : WrittenTag) : Option Octets :=
  if tag.handle = "" then some tag.suffix
  else (handles.lookup tag.handle).map (· ++ tag.suffix)

/-- What may stand before a node. -/
structure Properties where
  anchor : Option String := none
  tag : Option Octets := none

/-- Reads an anchor, if there is one. -/
def takeAnchor : Read (Option String) := do
  match ← peek with
  | some (.anchor name) =>
    skip
    return some name
  | _ => return none

/-- Reads a tag, if there is one. -/
def takeTag (handles : Handles) : Read (Option Octets) := do
  match ← peek with
  | some (.tag tag) =>
    skip
    return some (← (fullTag? handles tag : Option Octets))
  | _ => return none

/-- Reads an anchor and a tag, in either order. -/
def properties (handles : Handles) : Read Properties := do
  match ← takeAnchor with
  | some name => return ⟨some name, ← takeTag handles⟩
  | none =>
    match ← takeTag handles with
    | none => return {}
    | some tag => return ⟨← takeAnchor, some tag⟩

/-! ### Where a node is left out -/

/-- Whether the next token is one of those given. -/
def nextIn (tokens : List Token) : Read Bool := do
  match ← peek with
  | none => return false
  | some token => return tokens.contains token

/-! ### Nodes -/

mutual

/-- Reads a node. Only in block text may it be a block collection, and only as part of a block
map may it be a list whose dashes stand at the column of the map. -/
def node (handles : Handles) (block dashes : Bool) : Nat → Read Node
  | 0 => failure
  | fuel + 1 => do
    match ← peek with
    | some (.aliasOf name) =>
      skip
      return .aliasOf (← numberOf name)
    | _ =>
      let props ← properties handles
      match props.anchor with
      | none => content handles block dashes props fuel
      | some name =>
        let (number, rank) ← declare name
        let node ← content handles block dashes props fuel
        keep number rank node
        return node

/-- Reads what stands behind the properties of a node. -/
def content (handles : Handles) (block dashes : Bool) (props : Properties) : Nat → Read Node
  | 0 => failure
  | fuel + 1 => do
    match ← peek with
    | some (.scalar style text) =>
      skip
      return .scalar props.tag style text
    | some .flowListStart =>
      skip
      return .list (← flowItems handles true fuel)
    | some .flowMapStart =>
      skip
      return .map (← flowEntries handles true fuel)
    | some .blockListStart =>
      if block then
        skip
        return .list (← blockItems handles fuel)
      else emptyContent props
    | some .blockMapStart =>
      if block then
        skip
        return .map (← blockEntries handles fuel)
      else emptyContent props
    | some .blockEntry =>
      if dashes then return .list (← dashItems handles fuel) else emptyContent props
    | _ => emptyContent props

/-- Stands for a node that has properties only. -/
def emptyContent (props : Properties) : Read Node :=
  if props.anchor.isSome || props.tag.isSome then
    return .scalar props.tag .plain ""
  else failure

/-- Reads the entries of a block list, up to its end. -/
def blockItems (handles : Handles) : Nat → Read (List Node)
  | 0 => failure
  | fuel + 1 => do
    if ← take .blockEntry then
      let item ← if ← nextIn [.blockEntry, .blockEnd] then pure Node.empty
        else node handles true false fuel
      return item :: (← blockItems handles fuel)
    else
      expect .blockEnd
      return []

/-- Reads the entries of a list whose dashes stand at the column of the map around it; it ends
where no dash follows. -/
def dashItems (handles : Handles) : Nat → Read (List Node)
  | 0 => failure
  | fuel + 1 => do
    if ← take .blockEntry then
      let item ← if ← nextIn [.blockEntry, .key, .value, .blockEnd] then pure Node.empty
        else node handles true false fuel
      return item :: (← dashItems handles fuel)
    else return []

/-- Reads the entries of a block map, up to its end. -/
def blockEntries (handles : Handles) : Nat → Read (List (Node × Node))
  | 0 => failure
  | fuel + 1 => do
    if ← take .key then
      let key ← if ← nextIn [.key, .value, .blockEnd] then pure Node.empty
        else node handles true true fuel
      let value ← if ← take .value then
          if ← nextIn [.key, .value, .blockEnd] then pure Node.empty
          else node handles true true fuel
        else pure Node.empty
      return (key, value) :: (← blockEntries handles fuel)
    else
      expect .blockEnd
      return []

/-- Reads the items of a flow list, up to its end. -/
def flowItems (handles : Handles) (first : Bool) : Nat → Read (List Node)
  | 0 => failure
  | fuel + 1 => do
    if ← take .flowListEnd then return []
    else
      if !first then expect .flowEntry
      if ← take .key then
        let entry ← pairEntry handles fuel
        return .map [entry] :: (← flowItems handles false fuel)
      else if ← take .flowListEnd then return []
      else
        let item ← node handles false false fuel
        return item :: (← flowItems handles false fuel)

/-- Reads a single pair in a flow list, behind the token of its key. Where the key is left out,
the token that shows it is read as the key. -/
def pairEntry (handles : Handles) : Nat → Read (Node × Node)
  | 0 => failure
  | fuel + 1 => do
    let key ← if ← nextIn [.value, .flowEntry, .flowListEnd] then do
        skip
        pure Node.empty
      else node handles false false fuel
    let value ← if ← take .value then
        if ← nextIn [.flowEntry, .flowListEnd] then pure Node.empty
        else node handles false false fuel
      else pure Node.empty
    return (key, value)

/-- Reads the entries of a flow map, up to its end. -/
def flowEntries (handles : Handles) (first : Bool) : Nat → Read (List (Node × Node))
  | 0 => failure
  | fuel + 1 => do
    if ← take .flowMapEnd then return []
    else
      if !first then expect .flowEntry
      if ← take .key then
        let key ← if ← nextIn [.value, .flowEntry, .flowMapEnd] then pure Node.empty
          else node handles false false fuel
        let value ← if ← take .value then
            if ← nextIn [.flowEntry, .flowMapEnd] then pure Node.empty
            else node handles false false fuel
          else pure Node.empty
        return (key, value) :: (← flowEntries handles false fuel)
      else if ← take .flowMapEnd then return []
      else
        let key ← node handles false false fuel
        return (key, Node.empty) :: (← flowEntries handles false fuel)

end

/-! ### Documents -/

/-- Reads directives: at most one version, which must be 1.1 or 1.2, and handles, each given
once. -/
def directives (versioned : Bool) (handles : Handles) : List Token → Option (Handles × List Token)
  | .versionDirective major minor :: rest =>
    if versioned || major != 1 || (minor != 1 && minor != 2) then none
    else directives true handles rest
  | .tagDirective handle address :: rest =>
    if (handles.lookup handle).isSome then none
    else directives versioned ((handle, address) :: handles) rest
  | rest => some (handles, rest)

/-- The handles of a document: its own, and the default ones that it does not give anew. -/
def withDefaults (handles : Handles) : Handles :=
  handles ++ defaultHandles

/-- Whether a token ends the content of a document. -/
def endsDocument : Option Token → Bool
  | none => true
  | some (.versionDirective ..) => true
  | some (.tagDirective ..) => true
  | some .documentStart => true
  | some .documentEnd => true
  | some _ => false

/-- Reads the one document of a stream. An empty stream has a document without a root; a second
document is refused. -/
def document (tokens : List Token) : Option Document := do
  match tokens with
  | [] => return ⟨none, []⟩
  | first :: _ =>
    let (handles, explicit) := match first with
      | .versionDirective .. => (true, true)
      | .tagDirective .. => (true, true)
      | .documentStart => (false, true)
      | _ => (false, false)
    let (handles, rest) ← if handles then directives false [] tokens else some ([], tokens)
    let rest ← if explicit then
        match rest with
        | .documentStart :: rest => some rest
        | _ => none
      else some rest
    let fuel := 3 * tokens.length + 3
    let (root, r) ← if explicit && endsDocument rest.head? then
        some (Node.empty, { tokens := rest })
      else (node (withDefaults handles) true false fuel).run { tokens := rest }
    if r.tokens.all (· == .documentEnd) then return ⟨some root, r.anchored⟩ else none

end Reader

/-- The document of a text. -/
def document? (text : String) : Option Document := do
  Reader.document (← tokens? text.toList)

namespace Document

/-- The node that an alias stands for. -/
def target? (d : Document) (number : Nat) : Option Node :=
  let named := d.anchored.filter (·.number == number)
  (named.foldl (fun (best : Option Anchored) a =>
    match best with
    | none => some a
    | some b => if b.rank < a.rank then some a else some b) none).map Anchored.node

/-- How many aliases may be followed while a document is read: a hundred for each mark that
writes it. -/
def aliasLimit (d : Document) : Nat :=
  100 * (d.root.map Node.size).getD 1

end Document

end ToolTree.Yaml
