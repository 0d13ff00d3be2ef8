import ToolTree.Proofs.BlockLines
import ToolTree.Yaml.Node

/-!
Block text and the nodes that it spells.

A layout is a node together with the way in which block text writes it, without anchors and tags.
The lines of a layout give its tokens: a block is opened by its first line and closed by the first
one that stands further left (`Outline.finish_entryLines`). Its tokens in turn are read as its node
(`Reader.document_tokens`). Two units of fuel for each token are enough there, since two calls at
most stand between one token and the next.
-/

namespace ToolTree.Yaml

/-- A node as block text lays it out: a value on the line of its key, or a block of entries on lines
of its own, which is a map or the one item of a list. Keys are plain. -/
inductive Layout where
  | inline (quoted : Bool) (text : String)
  | literal (text : String)
  | listed (text : String)
  | map (entries : List (String × Layout))
  | item (entries : List (String × Layout))

namespace Layout

/-- A plain text. -/
abbrev plain (text : String) : Layout :=
  .inline false text

mutual

/-- The node that is laid out. -/
def node : Layout → Node
  | .inline quoted text => .scalar none (if quoted then .doubleQuoted else .plain) text
  | .literal text => .scalar none .literal (text ++ "\n")
  | .listed text => .list [.scalar none .plain text]
  | .map entries => .map (entryNodes entries)
  | .item entries => .list [.map (entryNodes entries)]

/-- The nodes of entries. -/
def entryNodes : List (String × Layout) → List (Node × Node)
  | [] => []
  | (key, value) :: rest => (.scalar none .plain key, value.node) :: entryNodes rest

end

mutual

/-- The tokens of a layout. -/
def tokens : Layout → List Token
  | .inline quoted text => (Written.inline quoted text).tokens
  | .literal text => (Written.literal text).tokens
  | .listed text => (Written.listed text).tokens
  | .map entries => .blockMapStart :: entryTokens entries
  | .item entries =>
    .blockListStart :: .blockEntry :: .blockMapStart :: (entryTokens entries ++ [.blockEnd])

/-- The tokens of entries, up to the end of their block. -/
def entryTokens : List (String × Layout) → List Token
  | [] => [.blockEnd]
  | (key, value) :: rest =>
    .key :: .scalar .plain key :: .value :: (value.tokens ++ entryTokens rest)

end

/-- What stands on the line of the key. -/
def written : Layout → Written
  | .inline quoted text => .inline quoted text
  | .literal text => .literal text
  | .listed text => .listed text
  | .map _ => .nothing
  | .item _ => .nothing

/-- Lines the first of which stands behind a dash at a column. -/
def dashed (column : Nat) : List Line → List Line
  | .entry _ _ key value :: rest => .entry column true key value :: rest
  | ls => ls

mutual

/-- The lines below the one of the key, for a block at a column. -/
def blockLines : Layout → Nat → List Line
  | .map entries, column => entryLines entries column
  | .item entries, column => dashed column (entryLines entries (column + 2))
  | _, _ => []

/-- The lines of entries at a column. -/
def entryLines : List (String × Layout) → Nat → List Line
  | [], _ => []
  | (key, value) :: rest, column =>
    .entry column false key value.written ::
      (value.blockLines (column + 2) ++ entryLines rest column)

end

mutual

/-- Whether no block is empty. -/
def isFilled : Layout → Bool
  | .map entries => !entries.isEmpty && areFilled entries
  | .item entries => !entries.isEmpty && areFilled entries
  | _ => true

/-- Whether no block in the values of entries is empty. -/
def areFilled : List (String × Layout) → Bool
  | [] => true
  | (_, value) :: rest => value.isFilled && areFilled rest

end

end Layout

/-! ### From lines to tokens -/

/-- Whether a line is an entry. -/
def Line.isEntry : Line → Bool
  | .entry .. => true
  | _ => false

namespace Outline

open Layout

variable {o : Outline} {ts : List Token} {columns : List Nat} {column : Nat} {outer : Int}

theorem emitAll_mk (ts : List Token) (columns : List Nat) (more : List Token) :
    (Outline.mk ts columns).emitAll more = ⟨more.reverse ++ ts, columns⟩ := by
  induction more generalizing ts with
  | nil => rfl
  | cons token more ih =>
    rw [emitAll, List.foldl_cons, ← emitAll, emit, ih, List.reverse_cons, List.append_assoc]
    rfl

theorem close_cons {c : Nat} (beyond : outer < c) :
    (Outline.mk ts (c :: columns)).close outer =
      (Outline.mk (.blockEnd :: ts) columns).close outer := by
  rw [close, Lexer.closeColumns, if_pos beyond, close]

theorem close_close {inner : Int} (le : outer ≤ inner) (o : Outline) :
    (o.close inner).close outer = o.close outer := by
  obtain ⟨ts, columns⟩ := o
  induction columns generalizing ts with
  | nil => rfl
  | cons c columns ih =>
    by_cases beyond : inner < c
    · rw [close_cons beyond, close_cons (by omega), ih]
    · rw [close_of_le ⟨ts, c :: columns⟩ (Int.not_lt.mp beyond)]

/-- The line of an entry closes what stands further right first. -/
theorem close_foldl_entryLines (entries : List (String × Layout)) (le : outer ≤ column)
    (o : Outline) : ((entryLines entries column).foldl read o).close outer =
      ((entryLines entries column).foldl read (o.close column)).close outer := by
  cases entries with
  | nil => exact (close_close le o).symm
  | cons entry rest =>
    obtain ⟨key, value⟩ := entry
    have same (value : Written) : (o.close column).read (.entry column false key value) =
        o.read (.entry column false key value) := by
      show (((o.close column).enter column key).emitAll _) = (o.enter column key).emitAll _
      rw [enter, enter, close_close (Int.le_refl _)]
    rw [entryLines, List.foldl_cons, List.foldl_cons, same]

/-- The first line of a block opens it. -/
theorem foldl_entryLines_nest {entries : List (String × Layout)} (filled : entries ≠ [])
    (inside : o.indent < column) : (entryLines entries column).foldl read o =
      (entryLines entries column).foldl read ⟨.blockMapStart :: o.tokens, column :: o.columns⟩ := by
  obtain ⟨⟨key, value⟩, rest, rfl⟩ := List.exists_cons_of_ne_nil filled
  have opened : o.nest column .blockMapStart = ⟨.blockMapStart :: o.tokens, column :: o.columns⟩ :=
    if_pos inside
  have same (value : Written) : o.read (.entry column false key value) =
      (o.nest column .blockMapStart).read (.entry column false key value) := by
    have left := Int.le_of_lt inside
    have indent := indent_nest o left .blockMapStart
    show (o.enter column key).emitAll _ =
      ((o.nest column .blockMapStart).enter column key).emitAll _
    rw [enter, enter, close_of_le o left, close_of_le _ (Int.le_of_eq indent),
      nest.eq_1 (o.nest column .blockMapStart), if_neg (by omega)]
  rw [entryLines, List.foldl_cons, List.foldl_cons, same, opened]

theorem close_emitAll (around : (Outline.mk ts columns).indent ≤ outer) (more : List Token) :
    ((Outline.mk ts columns).emitAll more).close outer = (Outline.mk ts columns).emitAll more := by
  rw [emitAll_mk]
  exact close_of_le ⟨more.reverse ++ ts, columns⟩ around

/-- A block behind a dash is read as one behind the item that the dash opens. -/
theorem foldl_dashed {entries : List (String × Layout)} (filled : entries ≠ [])
    (inside : (Outline.mk ts columns).indent < column) :
    (dashed column (entryLines entries (column + 2))).foldl read ⟨ts, columns⟩ =
      (entryLines entries (column + 2)).foldl read
        ⟨.blockEntry :: .blockListStart :: ts, column :: columns⟩ := by
  obtain ⟨⟨key, value⟩, rest, rfl⟩ := List.exists_cons_of_ne_nil filled
  have opened : (Outline.mk ts columns).item column =
      ⟨.blockEntry :: .blockListStart :: ts, column :: columns⟩ := by
    rw [item, close_of_le _ (Int.le_of_lt inside), nest, if_pos inside, emit]
  rw [entryLines, dashed, List.foldl_cons, List.foldl_cons, ← opened]
  rfl

mutual

/-- The lines below a key give the tokens of its value, when what stands further right is closed. -/
theorem close_foldl_blockLines (layout : Layout) (filled : layout.isFilled = true)
    (ts : List Token) (columns : List Nat) (column : Nat)
    (deep : (Outline.mk ts columns).indent = column) :
    ((layout.blockLines (column + 2)).foldl read
        ((Outline.mk ts columns).emitAll layout.written.tokens)).close column =
      (Outline.mk ts columns).emitAll layout.tokens := by
  have around := Int.le_of_eq deep
  match layout with
  | .inline quoted text => exact close_emitAll around _
  | .literal text => exact close_emitAll around _
  | .listed text => exact close_emitAll around _
  | .map entries =>
    rw [isFilled, Bool.and_eq_true, Bool.not_eq_true', List.isEmpty_eq_false_iff] at filled
    have inside : (Outline.mk ts columns).indent < (column + 2 : Nat) := by omega
    exact (congrArg (close · column) (foldl_entryLines_nest filled.1 inside)).trans
      (close_foldl_open entries filled.2 _ _ _ _ (by omega) around)
  | .item entries =>
    rw [isFilled, Bool.and_eq_true, Bool.not_eq_true', List.isEmpty_eq_false_iff] at filled
    have inside : (Outline.mk ts columns).indent < (column + 2 : Nat) := by omega
    have within : (Outline.mk (.blockEntry :: .blockListStart :: ts)
        ((column + 2) :: columns)).indent < (column + 2 + 2 : Nat) := by
      show ((column + 2 : Nat) : Int) < _
      omega
    have read : ((dashed (column + 2) (entryLines entries (column + 2 + 2))).foldl read
        ⟨ts, columns⟩).close (column + 2 : Nat) =
          (Outline.mk (.blockMapStart :: .blockEntry :: .blockListStart :: ts)
            ((column + 2) :: columns)).emitAll (entryTokens entries) := by
      rw [foldl_dashed filled.1 inside, foldl_entryLines_nest filled.1 within]
      exact close_foldl_open entries filled.2 _ _ _ _ (by omega) (Int.le_refl _)
    show ((dashed (column + 2) (entryLines entries (column + 2 + 2))).foldl Outline.read
      ⟨ts, columns⟩).close column = _
    rw [← close_close (by omega : (column : Int) ≤ (column + 2 : Nat)), read, emitAll_mk,
      close_cons (by omega), close_of_le ⟨.blockEnd :: _, columns⟩ around, emitAll_mk]
    simp [Layout.tokens]

/-- The lines of a block that is open give the tokens of its entries, when it is closed. -/
theorem close_foldl_open (entries : List (String × Layout))
    (filled : areFilled entries = true) (ts : List Token) (columns : List Nat) (column : Nat)
    (outer : Int) (inside : outer < column) (around : (Outline.mk ts columns).indent ≤ outer) :
    ((entryLines entries column).foldl read ⟨ts, column :: columns⟩).close outer =
      (Outline.mk ts columns).emitAll (entryTokens entries) := by
  match entries with
  | [] =>
    rw [entryLines, List.foldl_nil, close_cons inside]
    exact close_of_le ⟨.blockEnd :: ts, columns⟩ around
  | (key, value) :: rest =>
    rw [areFilled, Bool.and_eq_true] at filled
    have entered : (Outline.mk ts (column :: columns)).enter column key =
        ⟨.value :: .scalar .plain key :: .key :: ts, column :: columns⟩ := by
      have deep : (Outline.mk ts (column :: columns)).indent = column := rfl
      rw [enter, close_of_le _ (Int.le_of_eq deep), nest, if_neg (by omega)]
      rfl
    have read : (Outline.mk ts (column :: columns)).read (.entry column false key value.written) =
        ((Outline.mk ts (column :: columns)).enter column key).emitAll value.written.tokens := rfl
    have behind (ts : List Token) := close_foldl_open rest filled.2 ts columns column outer inside
      around
    rw [entryLines, List.foldl_cons, List.foldl_append, read, entered,
      close_foldl_entryLines rest (Int.le_of_lt inside),
      close_foldl_blockLines value filled.1 _ _ _ rfl, emitAll_mk, behind, emitAll_mk, emitAll_mk]
    simp [entryTokens]

end

/-- The lines of entries from the left are a block with the tokens of the entries. -/
theorem finish_entryLines {entries : List (String × Layout)} (some : entries ≠ [])
    (filled : areFilled entries = true) :
    ((entryLines entries 0).foldl read {}).finish = (Layout.map entries).tokens := by
  rw [finish, foldl_entryLines_nest some (by decide),
    close_foldl_open entries filled _ _ _ _ (by decide) (by decide), emitAll_mk]
  simp [Layout.tokens]

/-- Blank lines and comments are passed over. -/
theorem foldl_filter_isEntry (ls : List Line) (o : Outline) :
    (ls.filter Line.isEntry).foldl read o = ls.foldl read o := by
  induction ls generalizing o with
  | nil => rfl
  | cons line rest ih =>
    cases line with
    | blank => exact ih o
    | comment => exact ih o
    | entry => exact ih _

end Outline

/-! ### From tokens to nodes -/

/-- No layout begins with a token that would show that a value is left out. -/
theorem Layout.exists_tokens (layout : Layout) : ∃ first more, layout.tokens = first :: more ∧
    first ∉ [Token.key, .value, .blockEnd] := by
  cases layout with
  | inline quoted text => exact ⟨_, _, rfl, by simp⟩
  | literal text => exact ⟨_, _, rfl, by simp⟩
  | listed text => exact ⟨_, _, rfl, by decide⟩
  | map entries => exact ⟨_, _, rfl, by decide⟩
  | item entries => exact ⟨_, _, rfl, by decide⟩

namespace Reader

variable {handles : Handles}

theorem read_bind {α β : Type} {step : Read α} {next : α → Read β} {r r' : Reader} {a : α}
    (reads : step r = some (a, r')) : (step >>= next) r = next a r' := by
  show (step r).bind (fun (a, r) => next a r) = next a r'
  rw [reads]
  rfl

theorem nextIn_of_notMem {first : Token} {some : List Token} (told : first ∉ some) (r : Reader)
    (ts : List Token) : nextIn some { r with tokens := first :: ts } =
      .some (false, { r with tokens := first :: ts }) := by
  have missing : some.contains first = false := by simpa using told
  rw [← missing]
  rfl

theorem take_self {token : Token} (r : Reader) (ts : List Token) :
    take token { r with tokens := token :: ts } = some (true, { r with tokens := ts }) := by
  have same : (some token == some token) = true := by simp
  show (if (some token == some token) = true then _ else _ : Read Bool) _ = _
  rw [if_pos same]
  rfl

/-- Where a node is not left out, an item of a block is read and then the others. -/
theorem blockItems_of_reads {fuel : Nat} {r r' r'' : Reader} {first : Token} {ts : List Token}
    {item : Node} {items : List Node} (told : first ∉ [Token.blockEntry, .blockEnd])
    (reads : node handles true false fuel { r with tokens := first :: ts } = some (item, r'))
    (others : blockItems handles fuel r' = some (items, r'')) :
    blockItems handles (fuel + 1) { r with tokens := .blockEntry :: first :: ts } =
      some (item :: items, r'') := by
  rw [blockItems, read_bind (take_self r _)]
  simp only [if_true]
  rw [read_bind (nextIn_of_notMem told r ts)]
  simp only [Bool.false_eq_true, if_false]
  rw [read_bind reads, read_bind others]
  rfl

/-- Where a value is not left out, an entry of a block is read and then the others. -/
theorem blockEntries_of_reads {fuel : Nat} {r r' r'' : Reader} {key : String} {first : Token}
    {ts : List Token} {value : Node} {entries : List (Node × Node)}
    (told : first ∉ [Token.key, .value, .blockEnd])
    (reads : node handles true true (fuel + 2) { r with tokens := first :: ts } = some (value, r'))
    (others : blockEntries handles (fuel + 2) r' = some (entries, r'')) :
    blockEntries handles (fuel + 3)
        { r with tokens := .key :: .scalar .plain key :: .value :: first :: ts } =
      some ((.scalar none .plain key, value) :: entries, r'') := by
  have keyed : node handles true true (fuel + 2)
      { r with tokens := .scalar .plain key :: .value :: first :: ts } =
        some (.scalar none .plain key, { r with tokens := .value :: first :: ts }) := rfl
  rw [blockEntries, read_bind (take_self r _)]
  simp only [if_true]
  rw [read_bind (nextIn_of_notMem (by simp) r _)]
  simp only [Bool.false_eq_true, if_false]
  rw [read_bind keyed, read_bind (take_self r _)]
  simp only [if_true]
  rw [read_bind (nextIn_of_notMem told r ts)]
  simp only [Bool.false_eq_true, if_false]
  rw [read_bind reads, read_bind others]
  rfl

/-- A block of entries is read as a map. -/
theorem node_of_blockEntries {dashes : Bool} {fuel : Nat} {r r' : Reader} {ts : List Token}
    {entries : List (Node × Node)}
    (reads : blockEntries handles fuel { r with tokens := ts } = some (entries, r')) :
    node handles true dashes (fuel + 2) { r with tokens := .blockMapStart :: ts } =
      some (.map entries, r') := by
  have opened : node handles true dashes (fuel + 2) { r with tokens := .blockMapStart :: ts } =
      (blockEntries handles fuel { r with tokens := ts }).bind
        fun (entries, r) => some (.map entries, r) := rfl
  rw [opened, reads]
  rfl

mutual

/-- The tokens of a layout are read as its node. -/
theorem node_tokens (layout : Layout) (dashes : Bool) {fuel : Nat}
    (enough : 2 * layout.tokens.length ≤ fuel) (r : Reader) (rest : List Token) :
    node handles true dashes fuel { r with tokens := layout.tokens ++ rest } =
      some (layout.node, { r with tokens := rest }) := by
  match layout with
  | .inline quoted text =>
    obtain ⟨fuel, rfl⟩ := Nat.exists_eq_add_of_le' enough
    rfl
  | .literal text =>
    obtain ⟨fuel, rfl⟩ := Nat.exists_eq_add_of_le' enough
    rfl
  | .listed text =>
    obtain ⟨fuel, rfl⟩ := Nat.exists_eq_add_of_le' enough
    rfl
  | .map entries =>
    have enough : 2 + 2 * (Layout.entryTokens entries).length ≤ fuel := by
      simp only [Layout.tokens, List.length_cons] at enough
      omega
    obtain ⟨fuel, rfl⟩ := Nat.exists_eq_add_of_le' (by omega : 2 ≤ fuel)
    exact node_of_blockEntries (blockEntries_tokens entries (by omega : _ ≤ fuel) r rest)
  | .item entries =>
    have enough : 8 + 2 * (Layout.entryTokens entries).length ≤ fuel := by
      simp only [Layout.tokens, List.length_cons, List.length_append, List.length_nil] at enough
      omega
    obtain ⟨fuel, rfl⟩ := Nat.exists_eq_add_of_le' (by omega : 5 ≤ fuel)
    have read := blockEntries_tokens entries (by omega : _ ≤ fuel) r (.blockEnd :: rest)
    have ended : blockItems handles (fuel + 2) { r with tokens := .blockEnd :: rest } =
        some ([], { r with tokens := rest }) := rfl
    have items := blockItems_of_reads (by decide) (node_of_blockEntries read) ended
    have opened : node handles true dashes (fuel + 5) { r with tokens := .blockListStart ::
        .blockEntry :: .blockMapStart :: (Layout.entryTokens entries ++ .blockEnd :: rest) } =
          (blockItems handles (fuel + 3) { r with tokens := .blockEntry :: .blockMapStart ::
            (Layout.entryTokens entries ++ .blockEnd :: rest) }).bind
              fun (items, r) => some (.list items, r) := rfl
    have spelt : (Layout.item entries).tokens ++ rest = .blockListStart :: .blockEntry ::
        .blockMapStart :: (Layout.entryTokens entries ++ .blockEnd :: rest) := by
      simp [Layout.tokens]
    rw [spelt, opened, items]
    rfl

theorem blockEntries_tokens (entries : List (String × Layout)) {fuel : Nat}
    (enough : 2 * (Layout.entryTokens entries).length ≤ fuel) (r : Reader) (rest : List Token) :
    blockEntries handles fuel { r with tokens := Layout.entryTokens entries ++ rest } =
      some (Layout.entryNodes entries, { r with tokens := rest }) := by
  match entries with
  | [] =>
    obtain ⟨fuel, rfl⟩ := Nat.exists_eq_add_of_le' enough
    rfl
  | (key, value) :: others =>
    simp only [Layout.entryTokens, List.length_cons, List.length_append] at enough
    obtain ⟨fuel, rfl⟩ := Nat.exists_eq_add_of_le' (by omega : 3 ≤ fuel)
    have read := node_tokens value true (by omega : _ ≤ fuel + 2) r
      (Layout.entryTokens others ++ rest)
    have behind := blockEntries_tokens others (by omega : _ ≤ fuel + 2) r rest
    obtain ⟨first, more, tokens, told⟩ := value.exists_tokens
    rw [Layout.entryTokens, List.cons_append, List.cons_append, List.cons_append,
      List.append_assoc, Layout.entryNodes]
    rw [tokens, List.cons_append] at read ⊢
    exact blockEntries_of_reads told read behind

end

/-- The tokens of a layout are a document without anchors. -/
theorem document_tokens (layout : Layout) :
    document layout.tokens = some ⟨some layout.node, []⟩ := by
  have read : node (withDefaults []) true false (3 * layout.tokens.length + 3)
      { tokens := layout.tokens ++ [] } = some (layout.node, { tokens := [] }) :=
    node_tokens layout false (by omega) { tokens := layout.tokens } []
  rw [List.append_nil] at read
  have whole : document layout.tokens =
      ((node (withDefaults []) true false (3 * layout.tokens.length + 3))
        { tokens := layout.tokens }).bind fun read =>
          if read.2.tokens.all (· == .documentEnd) then some ⟨some read.1, read.2.anchored⟩
          else none := by
    cases layout <;> rfl
  rw [whole, read]
  rfl

end Reader

end ToolTree.Yaml
