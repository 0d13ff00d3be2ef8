import ToolTree.Proofs.Scalars

/-!
The entries of block maps, as the lexer reads them.

Between two lines the lexer carries along the tokens so far and the columns of the open blocks
(`Outline`), whatever else its state holds. A key with its colon takes two steps, which close the
blocks further right and open one at the column of the key where there is none. What is written
behind the colon takes as many steps as it gives tokens, and leaves the lexer before the next line
(`Outline.Before`). A plain or literal scalar may go on there, so it is read as it stands only when
the next line stands further left (`Outline.Outdents`).
-/

namespace ToolTree.Yaml

open Text

/-! ### Steps of the lexer -/

namespace Lexer

variable {s s' s'' : Lexer} {m n : Nat}

/-- Whether so many steps lead from one state to another. -/
def Goes (n : Nat) (s s' : Lexer) : Prop :=
  ∀ fuel, run (fuel + n) s = run fuel s'

theorem Goes.refl (s : Lexer) : Goes 0 s s := by
  intro fuel
  rfl

theorem Goes.trans (first : Goes m s s') (second : Goes n s' s'') : Goes (m + n) s s'' := by
  intro fuel
  rw [Nat.add_comm m n, ← Nat.add_assoc, first, second]

theorem goes_of_step (step : s.step = some (s', false)) : Goes 1 s s' := by
  intro fuel
  rw [run, step]

/-- A step reads what stands behind a gap, when the blocks further right are closed. -/
theorem step_of_gap {allowed : Bool} {c : Located} {rest : Input}
    (gap : skipGap s.inFlow false s.keyAllowed s.input = (allowed, c :: rest))
    (fresh : ({ s with keyAllowed := allowed, input := c :: rest }).dropStaleKeys c = some s') :
    s.step = ((s'.closeBlocks c.column).fetch c rest).map (·, false) := by
  rw [step, gap]
  change (({ s with keyAllowed := allowed, input := c :: rest }).dropStaleKeys c).bind
    (fun s => ((s.closeBlocks c.column).fetch c rest).bind fun s => some (s, false)) = _
  rw [fresh, Option.bind_some]
  cases (s'.closeBlocks c.column).fetch c rest <;> rfl

theorem fetchPlain_of_read {c : Located} {rest : Input} {scalar : PlainScalar}
    (noted : s.noteKey c = some s')
    (read : plainScalar s'.inFlow (s'.indent + 1) {} (c :: rest) = some scalar) :
    s.fetchPlain c rest = some ({ s' with keyAllowed := scalar.broken, input := scalar.rest }.emit
      (.scalar .plain (String.ofList scalar.text))) := by
  simp [fetchPlain, noted, read]

/-- Whether a character always ends a gap: it is no part of one and begins no comment. -/
def isSolid (c : Char) : Bool :=
  !isGap c && c != '#' && c != '\ufeff'

theorem skipGap_isSolid {flow allowed : Bool} {c : Located} (solid : isSolid c.char = true)
    (rest : Input) : skipGap flow false allowed (c :: rest) = (allowed, c :: rest) := by
  simp only [isSolid, isGap, isSpace, Bool.and_eq_true, Bool.not_eq_true', Bool.or_eq_false_iff,
    beq_eq_false_iff_ne, bne_iff_ne] at solid
  obtain ⟨⟨⟨⟨notSpace, notTab⟩, noBreak⟩, notHash⟩, notMark⟩ := solid
  rw [skipGap]
  simp [noBreak, isOrderMark, notMark, notSpace, notTab, notHash]

theorem run_of_stuck (stuck : s.step = none) (fuel : Nat) : run fuel s = none := by
  cases fuel with
  | zero => rfl
  | succ fuel => rw [run, stuck]

end Lexer

/-! ### Between two lines -/

/-- What the lexer carries from line to line: the tokens so far, the last one first, and the
columns of the open block collections, the innermost first. -/
structure Outline where
  tokens : List Token := []
  columns : List Nat := []
  deriving DecidableEq, Repr

namespace Outline

/-- The lexer with an outline, outside all flow collections and with no possible key. -/
def state (o : Outline) (keyAllowed : Bool) (input : Input) : Lexer where
  input
  tokens := o.tokens
  columns := o.columns
  keyAllowed

/-- The outline with one more token. -/
def emit (o : Outline) (token : Token) : Outline :=
  { o with tokens := token :: o.tokens }

/-- The outline without the blocks beyond a column. -/
def close (o : Outline) (column : Int) : Outline :=
  let (tokens, columns) := Lexer.closeColumns column o.tokens o.columns
  { tokens, columns }

/-- The column of the innermost block, −1 outside all. -/
def indent (o : Outline) : Int :=
  (o.state true []).indent

/-- The outline with a block at a column, unless the innermost one stands there already. -/
def nest (o : Outline) (column : Nat) (token : Token) : Outline :=
  if o.indent < column then { tokens := token :: o.tokens, columns := column :: o.columns } else o

variable (o : Outline) (keyAllowed : Bool) (input : Input)

@[simp] theorem inFlow_state : (o.state keyAllowed input).inFlow = false :=
  rfl

@[simp] theorem indent_state : (o.state keyAllowed input).indent = o.indent :=
  rfl

@[simp] theorem openBlockHere_state (column : Nat) (token : Token) :
    (o.state keyAllowed input).openBlockHere column token =
      (o.nest column token).state keyAllowed input := by
  unfold Lexer.openBlockHere Lexer.openBlock nest
  simp only [inFlow_state, indent_state]
  by_cases deeper : o.indent < column
  · simp [deeper, Lexer.insert, state]
  · simp [deeper]

theorem indent_close_le (column : Nat) : (o.close column).indent ≤ column := by
  obtain ⟨tokens, columns⟩ := o
  unfold close
  induction columns generalizing tokens with
  | nil => simp [Lexer.closeColumns, indent, state, Lexer.indent]
  | cons c columns ih =>
    simp only [Lexer.closeColumns]
    split
    case isTrue => exact ih _
    case isFalse left => simp [indent, state, Lexer.indent]; omega

theorem close_of_le {column : Int} (le : o.indent ≤ column) : o.close column = o := by
  obtain ⟨tokens, columns⟩ := o
  cases columns with
  | nil => rfl
  | cons c columns =>
    have left : ¬ (c : Int) > column := Int.not_lt.mpr le
    simp [close, Lexer.closeColumns, left]

theorem indent_nest {column : Nat} (le : o.indent ≤ column) (token : Token) :
    (o.nest column token).indent = column := by
  unfold nest
  split
  case isTrue => rfl
  case isFalse left => omega

theorem step_state {o : Outline} {a b : Bool} {input rest : Input} {c : Located}
    (gap : Lexer.skipGap false false a input = (b, c :: rest)) :
    (o.state a input).step =
      (((o.close c.column).state b (c :: rest)).fetch c rest).map (·, false) :=
  Lexer.step_of_gap (s := o.state a input) gap rfl

end Outline

/-! ### Reading one entry -/

namespace Lexer

theorem isSolid_of_isAlphanum {c : Char} (alphanum : c.isAlphanum = true) : isSolid c = true := by
  have notHash : c ≠ '#' := ne_of_isAlphanum alphanum rfl
  have notMark : c ≠ '\ufeff' := ne_of_isAlphanum alphanum rfl
  simp [isSolid, isGap_of_isAlphanum alphanum, notHash, notMark]

theorem isIndicator_of_isAlphanum {c : Char} (alphanum : c.isAlphanum = true) :
    isIndicator c = false := by
  simp only [isIndicator, List.contains_eq_mem, decide_eq_false_iff_not]
  intro mem
  have none : "-?:,[]\x7b\x7d#&*!|>'\"%@\x60".toList.any Char.isAlphanum = false := by decide
  exact List.any_eq_false.mp none c mem alphanum

/-- A letter or a digit begins a plain scalar. -/
theorem fetch_isAlphanum {s : Lexer} {c : Located} {rest : Input}
    (alphanum : c.char.isAlphanum = true) : s.fetch c rest = s.fetchPlain c rest := by
  have unlike (d : Char) (other : d.isAlphanum = false) : c.char ≠ d :=
    ne_of_isAlphanum alphanum other
  have noMark := atDocumentMark_of_char (unlike '-' rfl) (unlike '.' rfl) rest
  have notPercent : (c.char == '%') = false := beq_eq_false_iff_ne.mpr (unlike '%' rfl)
  unfold fetch
  simp only [notPercent, noMark, Bool.and_false, Bool.false_eq_true, if_false]
  split
  case h_11 =>
    simp [unlike '-' rfl, unlike '?' rfl, unlike ':' rfl, unlike '|' rfl, unlike '>' rfl,
      beginsPlain, isGap_of_isAlphanum alphanum, isIndicator_of_isAlphanum alphanum]
  all_goals
    rename_i mark
    exact absurd mark (unlike _ rfl)

section Marks

variable {s : Lexer} {l k off : Nat} {rest : Input}

theorem fetch_colon (gap : atGap rest = true) :
    s.fetch ⟨':', l, k, off⟩ rest = s.fetchValue ⟨':', l, k, off⟩ rest := by
  simp [fetch, atDocumentMark_of_char, gap]

theorem fetch_quote : s.fetch ⟨'"', l, k, off⟩ rest =
    s.fetchPart ⟨'"', l, k, off⟩ ((doubleQuoted {} rest).map (quotedToken .doubleQuoted)) := by
  simp [fetch, atDocumentMark_of_char]

theorem fetch_bracket : s.fetch ⟨'[', l, k, off⟩ rest =
    s.fetchFlowStart ⟨'[', l, k, off⟩ rest .flowListStart := by
  simp [fetch, atDocumentMark_of_char]

theorem fetch_closing : s.fetch ⟨']', l, k, off⟩ rest = s.fetchFlowEnd rest .flowListEnd := by
  simp [fetch, atDocumentMark_of_char]

theorem fetch_bar (outside : s.inFlow = false) :
    s.fetch ⟨'|', l, k, off⟩ rest = s.fetchBlockScalar .literal rest := by
  simp [fetch, atDocumentMark_of_char, outside]

theorem fetch_dash (gap : atGap rest = true) :
    s.fetch ⟨'-', l, k, off⟩ rest = s.fetchBlockEntry ⟨'-', l, k, off⟩ rest := by
  have noMark : atDocumentMark (⟨'-', l, k, off⟩ :: rest) = false := by
    cases rest with
    | nil => rfl
    | cons b more =>
      have other : ('-' == b.char) = false := by
        refine beq_eq_false_iff_ne.mpr ?_
        intro same
        rw [atGap, ← same] at gap
        cases gap
      cases more with
      | nil => rfl
      | cons d more => simp [atDocumentMark, other]
  simp [fetch, noMark, gap]

theorem fetchBlockScalar_of_read {text : List Char} {rest' : Input}
    (noKey : s.giveUpKey = some s) (read : blockScalar false s.indent rest = some (text, rest')) :
    s.fetchBlockScalar .literal rest =
      some ({ s with keyAllowed := true, input := rest' }.emit
        (.scalar .literal (String.ofList text))) := by
  have notFolded : (ScalarStyle.literal == .folded) = false := rfl
  simp [fetchBlockScalar, noKey, notFolded, read]

end Marks

end Lexer

namespace Outline

open Lexer

/-- The outline behind the colon of a key at a column. -/
def enter (o : Outline) (column : Nat) (key : String) : Outline :=
  ((((o.close column).nest column .blockMapStart).emit .key).emit (.scalar .plain key)).emit .value

theorem indent_enter (o : Outline) (column : Nat) (key : String) :
    (o.enter column key).indent = column :=
  indent_nest _ (indent_close_le o column) _

/-- Where a key was read that a colon may follow. -/
def keyed (o : Outline) (column : Nat) (key : String) (line offset : Nat) (input : Input) :
    Lexer where
  input
  tokens := .scalar .plain key :: (o.close column).tokens
  columns := (o.close column).columns
  possibleKey := some {
    required := (o.close column).indent == column
    before := (o.close column).tokens.length
    line
    column
    offset }
  keyAllowed := false

theorem atGap_locateFrom {l k off : Nat} {after : List Char}
    (follows : after.head?.all isGap = true) : atGap (locateFrom l k off after) = true := by
  cases after with
  | nil => rfl
  | cons c rest => simpa [locateFrom, atGap] using follows

theorem plainScalar_colon {indent : Int} (l k off : Nat) {after : List Char}
    (follows : after.head?.all isGap = true) :
    plainScalar false indent {} (locateFrom l k off (':' :: after)) =
      some ⟨[], false, locateFrom l k off (':' :: after)⟩ := by
  have ends : atGap (locateFrom l (k + 1) (off + ':'.utf8Size) after) = true :=
    atGap_locateFrom follows
  rw [locateFrom_cons rfl, plainScalar]
  simp [isSpace, isBreak, plainRefused, plainEnds, ends, Gap.isBroken]

theorem step_key {o : Outline} {a : Bool} {input : Input} {l k off : Nat} {key after : List Char}
    (gap : skipGap false false a input = (true, locateFrom l k off (key ++ ':' :: after)))
    (plain : isPlainText key = true) (follows : after.head?.all isGap = true) :
    (o.state a input).step = some (o.keyed k (String.ofList key) l off
      (locateFrom l (k + key.length) (off + width key) (':' :: after)), false) := by
  obtain ⟨c, more, rfl, alphanum, -, -⟩ := exists_of_isPlainText plain
  have inLine := isBreak_of_isAlphanum alphanum
  have near : (o.close k).indent + 1 ≤ (k : Int) + 1 := by
    have := indent_close_le o k
    omega
  have read := plainScalar_isPlainText false plain l off near (':' :: after)
  rw [plainScalar_colon _ _ _ follows] at read
  rw [List.cons_append, locateFrom_cons inLine] at gap read
  rw [step_state gap, fetch_isAlphanum alphanum,
    fetchPlain_of_read (s := (o.close k).state true _) rfl read]
  simp only [Option.map_some, PlainScalar.prepend, List.append_nil]
  rfl

section Keyed

variable (o : Outline) {column line offset : Nat} (key : String) (input : Input)

theorem dropStaleKeys_keyed {c : Located} (sameLine : c.line = line)
    (near : c.offset ≤ offset + 1024) :
    (o.keyed column key line offset input).dropStaleKeys c =
      some (o.keyed column key line offset input) := by
  have fresh : ¬ (line < c.line ∨ offset + 1024 < c.offset) := by omega
  simp [dropStaleKeys, keyed, dropStaleKey, fresh]

theorem closeBlocks_keyed {further : Nat} (le : column ≤ further) :
    (o.keyed column key line offset input).closeBlocks further =
      o.keyed column key line offset input := by
  let read := (o.close column).emit (.scalar .plain key)
  have kept : read.close further = read := by
    refine close_of_le read ?_
    have left : read.indent ≤ column := indent_close_le o column
    omega
  change { o.keyed column key line offset input with
    tokens := (read.close further).tokens, columns := (read.close further).columns } = _
  rw [kept]
  rfl

theorem fetchValue_keyed (c : Located) (rest : Input) :
    (o.keyed column key line offset input).fetchValue c rest =
      some ((o.enter column key).state false rest) := by
  have sameIndent (tokens : List Token) (possibleKey : Option PossibleKey) :
      Lexer.indent ⟨input, tokens, (o.close column).columns, possibleKey, [], false⟩ =
        (o.close column).indent := rfl
  have beforeBoth : (o.close column).tokens.length + 1 + 1 - (o.close column).tokens.length = 2 :=
    Nat.add_sub_cancel_left _ 2
  by_cases deeper : (o.close column).indent < column
  · simp [fetchValue, keyed, Lexer.insert, openBlock, inFlow, sameIndent, deeper, enter, nest,
      Lexer.emit, emit, state, beforeBoth]
  · simp [fetchValue, keyed, Lexer.insert, openBlock, inFlow, sameIndent, deeper, enter, nest,
      Lexer.emit, emit, state]

end Keyed

theorem step_colon {o : Outline} {l k off : Nat} {key after : List Char}
    (short : width key ≤ 1024) (follows : after.head?.all isGap = true) :
    (o.keyed k (String.ofList key) l off
      (locateFrom l (k + key.length) (off + width key) (':' :: after))).step =
      some ((o.enter k (String.ofList key)).state false
        (locateFrom l (k + key.length + 1) (off + width key + 1) after), false) := by
  let colon : Located := ⟨':', l, k + key.length, off + width key⟩
  let rest := locateFrom l (k + key.length + 1) (off + width key + 1) after
  have input : locateFrom l (k + key.length) (off + width key) (':' :: after) = colon :: rest :=
    locateFrom_cons rfl l _ _ after
  have near : colon.offset ≤ off + 1024 := Nat.add_le_add_left short off
  have solid : skipGap false false false (colon :: rest) = (false, colon :: rest) :=
    skipGap_isSolid rfl rest
  rw [input, step_of_gap (s := o.keyed k (String.ofList key) l off (colon :: rest)) solid
      (dropStaleKeys_keyed o _ _ rfl near),
    closeBlocks_keyed o _ _ (Nat.le_add_right k key.length),
    fetch_colon (atGap_locateFrom follows), fetchValue_keyed]
  rfl

/-! ### The end of a line -/

/-- Whether the lexer stands before a text, at the start of a line. -/
def Before (o : Outline) (tail : List Char) (s : Lexer) : Prop :=
  ∃ l a input, s = o.state a input ∧
    skipGap false false a input = skipGap false false true (locateFrom l 0 0 tail)

/-- Whether so many steps at most bring the lexer before a text. -/
def Reads (n : Nat) (s : Lexer) (o : Outline) (tail : List Char) : Prop :=
  ∃ m s', m ≤ n ∧ Goes m s s' ∧ o.Before tail s'

theorem Before.reads {o : Outline} {tail : List Char} {s : Lexer} (before : o.Before tail s)
    (n : Nat) : Reads n s o tail :=
  ⟨0, s, n.zero_le, .refl s, before⟩

theorem Reads.of_step {o : Outline} {tail : List Char} {s s' : Lexer} {n : Nat}
    (step : s.step = some (s', false)) (reads : Reads n s' o tail) : Reads (n + 1) s o tail := by
  obtain ⟨m, s'', le, goes, before⟩ := reads
  refine ⟨1 + m, s'', by omega, (goes_of_step step).trans goes, before⟩

/-- The end of a line allows a key again. -/
theorem before_feed (o : Outline) (l k off : Nat) (tail : List Char) :
    o.Before tail (o.state false (locateFrom l k off ('\n' :: tail))) := by
  refine ⟨l + 1, false, _, rfl, ?_⟩
  have feed : isBreak '\n' = true := rfl
  simp [locateFrom, feed, skipGap]

theorem locateFrom_space (l k off : Nat) (cs : List Char) :
    locateFrom l k off (' ' :: cs) = ⟨' ', l, k, off⟩ :: locateFrom l (k + 1) (off + 1) cs :=
  rfl

theorem locateFrom_feed (l k off : Nat) (cs : List Char) :
    locateFrom l k off ('\n' :: cs) = ⟨'\n', l, k, off⟩ :: locateFrom (l + 1) 0 0 cs :=
  rfl

theorem skipGap_spaces (l k off n : Nat) (cs : List Char) :
    skipGap false false true (locateFrom l k off (List.replicate n ' ' ++ cs)) =
      skipGap false false true (locateFrom l (k + n) (off + n) cs) := by
  induction n generalizing k off with
  | zero => rfl
  | succ n ih =>
    have behind : skipGap false false true
        (locateFrom l k off (' ' :: (List.replicate n ' ' ++ cs))) =
          skipGap false false true
            (locateFrom l (k + 1) (off + 1) (List.replicate n ' ' ++ cs)) := by
      rw [locateFrom_space, skipGap]
      simp [isBreak, isOrderMark]
    rw [List.replicate_succ, List.cons_append, behind, ih, Nat.add_right_comm k,
      Nat.add_right_comm off]
    rfl

/-- A text in which what follows blank lines stands at a column at most, so that a scalar of a
block at that column has ended. -/
inductive Outdents (column : Nat) : List Char → Prop where
  | ends : Outdents column []
  | blank {tail : List Char} (outdents : Outdents column tail) : Outdents column ('\n' :: tail)
  | line {k : Nat} {c : Char} {rest : List Char} (left : k ≤ column) (notGap : isGap c = false) :
      Outdents column (List.replicate k ' ' ++ c :: rest)

theorem mem_push {gap : Gap} {d : Char} (c : Char) (mem : d ∈ gap.chars) :
    d ∈ (gap.push c).chars :=
  List.mem_cons_of_mem c mem

theorem plainScalar_spaces (indent : Int) {gap : Gap} (feed : '\n' ∈ gap.chars) (l k off n : Nat)
    (cs : List Char) :
    ∃ gap' : Gap, '\n' ∈ gap'.chars ∧
      plainScalar false indent gap (locateFrom l k off (List.replicate n ' ' ++ cs)) =
        plainScalar false indent gap' (locateFrom l (k + n) (off + n) cs) := by
  induction n generalizing gap k off with
  | zero => exact ⟨gap, feed, rfl⟩
  | succ n ih =>
    obtain ⟨gap', feed', read⟩ := ih (mem_push ' ' feed) (k + 1) (off + 1)
    refine ⟨gap', feed', ?_⟩
    have here : plainScalar false indent gap
        (locateFrom l k off (' ' :: (List.replicate n ' ' ++ cs))) =
          plainScalar false indent (gap.push ' ')
            (locateFrom l (k + 1) (off + 1) (List.replicate n ' ' ++ cs)) := by
      rw [locateFrom_space, plainScalar]
      simp [isSpace]
    rw [List.replicate_succ, List.cons_append, here, read, Nat.add_right_comm k,
      Nat.add_right_comm off]
    rfl

theorem isBroken_of_feed {gap : Gap} (feed : '\n' ∈ gap.chars) : gap.isBroken = true := by
  have any : gap.chars.any isBreak = true := List.any_eq_true.mpr ⟨'\n', feed, rfl⟩
  simp [Gap.isBroken, any]

/-- A plain scalar ends where the text goes back to the left. -/
theorem plainScalar_outdents {column : Nat} {tail : List Char} (outdents : Outdents column tail)
    {gap : Gap} (feed : '\n' ∈ gap.chars) (l : Nat) :
    ∃ input, plainScalar false (column + 1) gap (locateFrom l 0 0 tail) = some ⟨[], true, input⟩ ∧
      skipGap false false true input = skipGap false false true (locateFrom l 0 0 tail) := by
  induction outdents generalizing gap l with
  | ends => exact ⟨[], by simp [locateFrom, plainScalar, isBroken_of_feed feed], rfl⟩
  | blank _ ih =>
    obtain ⟨input, read, same⟩ := ih (mem_push '\n' feed) (l + 1)
    refine ⟨input, ?_, ?_⟩
    · rw [locateFrom_feed, plainScalar]
      simpa [isSpace, isBreak] using read
    · rw [same, locateFrom_feed, skipGap]
      simp [isBreak]
  | @line k c rest left notGap =>
    obtain ⟨noSpace, noBreak⟩ := isGap_eq_false_iff.mp notGap
    obtain ⟨gap', feed', read⟩ := plainScalar_spaces (column + 1) feed l 0 0 k (c :: rest)
    refine ⟨locateFrom l (0 + k) (0 + k) (c :: rest), ?_, (skipGap_spaces l 0 0 k _).symm⟩
    have some : gap'.chars.isEmpty = false := by
      simpa using List.ne_nil_of_mem feed'
    have stops (rest : Input) :
        plainStops false (column + 1) ⟨c, l, 0 + k, 0 + k⟩ rest = true := by
      have : ((0 + k : Nat) : Int) < (column : Int) + 1 := by omega
      simp only [plainStops, this, Bool.not_false, decide_true, Bool.and_self, Bool.true_or]
    rw [read, locateFrom_cons noBreak, plainScalar]
    simp only [noSpace, noBreak, some, stops, isBroken_of_feed feed', Bool.false_eq_true, if_false,
      Bool.not_false, Bool.and_self, if_true]

theorem blockLines_spaces (chomping : Chomping) {indent : Nat} (block : BlockState)
    (between : block.inLine = false) (l k off : Nat) {n : Nat} (left : k + n ≤ indent)
    (cs : List Char) :
    blockLines false chomping indent block (locateFrom l k off (List.replicate n ' ' ++ cs)) =
      blockLines false chomping indent block (locateFrom l (k + n) (off + n) cs) := by
  induction n generalizing k off with
  | zero => rfl
  | succ n ih =>
    have here : k < indent := by omega
    rw [List.replicate_succ, List.cons_append, locateFrom_space, blockLines]
    simp only [between, here, decide_true, beq_self_eq_true, Bool.and_self, if_true,
      Bool.false_eq_true, if_false]
    rw [ih (k + 1) (off + 1) (by omega), Nat.add_right_comm k, Nat.add_right_comm off]
    rfl

/-- A block scalar ends where the text goes back to the left. -/
theorem blockLines_outdents {column : Nat} {tail : List Char} (outdents : Outdents column tail)
    {indent : Nat} (right : column < indent) (trail : List Char) (blank : Bool) (l : Nat) :
    ∃ input, blockLines false .clip indent { lead := ['\n'], trail, blank }
        (locateFrom l 0 0 tail) = some (['\n'], input) ∧
      skipGap false false true input = skipGap false false true (locateFrom l 0 0 tail) := by
  induction outdents generalizing trail l with
  | ends => exact ⟨[], rfl, rfl⟩
  | blank _ ih =>
    obtain ⟨input, read, same⟩ := ih ('\n' :: trail) (l + 1)
    refine ⟨input, ?_, ?_⟩
    · rw [locateFrom_feed, blockLines]
      simpa [isBreak] using read
    · rw [same, locateFrom_feed, skipGap]
      simp [isBreak]
  | @line k c rest left notGap =>
    obtain ⟨⟨notSpace, notTab⟩, noBreak⟩ : (c ≠ ' ' ∧ c ≠ '\t') ∧ isBreak c = false := by
      simpa [isGap, isSpace] using notGap
    refine ⟨locateFrom l (0 + k) (0 + k) (c :: rest), ?_, (skipGap_spaces l 0 0 k _).symm⟩
    have notThere : ¬ 0 + k = indent := by omega
    rw [blockLines_spaces .clip _ rfl l 0 0 (by omega), locateFrom_cons noBreak, blockLines]
    simp only [notSpace, notTab, noBreak, notThere, beq_iff_eq, Bool.and_eq_true, and_false,
      Bool.false_eq_true, if_false, BlockState.close]

end Outline

/-! ### What stands behind a key -/

/-- What an entry says behind its colon: nothing yet, a text that is plain or between double
quotes, a literal text on a line of its own, or a list of one plain text between brackets. -/
inductive Written where
  | nothing
  | inline (quoted : Bool) (text : String)
  | literal (text : String)
  | listed (text : String)
  deriving DecidableEq, Repr

namespace Written

/-- A plain text. -/
abbrev plain (text : String) : Written :=
  .inline false text

/-- The characters behind the colon, for a key at a column. -/
def chars (column : Nat) : Written → List Char
  | .nothing => ['\n']
  | .inline quoted text =>
    ' ' :: (if quoted then quoteChars text.toList else text.toList) ++ ['\n']
  | .literal text =>
    ' ' :: '|' :: '\n' :: (List.replicate (column + 2) ' ' ++ text.toList ++ ['\n'])
  | .listed text => ' ' :: '[' :: text.toList ++ [']', '\n']

/-- The tokens behind the one of the colon. -/
def tokens : Written → List Token
  | .nothing => []
  | .inline quoted text => [.scalar (if quoted then .doubleQuoted else .plain) text]
  | .literal text => [.scalar .literal (text ++ "\n")]
  | .listed text => [.flowListStart, .scalar .plain text, .flowListEnd]

/-- Whether a text may stand on the line of a literal scalar. -/
def isLiteralText (text : List Char) : Bool :=
  text.head?.any (· != ' ') && text.all isPrintable

/-- Whether what is written is read as it stands. -/
def isSound : Written → Bool
  | .nothing => true
  | .inline quoted text =>
    if quoted then text.toList.all isBraceless else isPlainText text.toList
  | .literal text => isLiteralText text.toList
  | .listed text => isPlainText text.toList

/-- Whether a scalar goes on until a line that stands further left. -/
def isOpen : Written → Bool
  | .inline quoted _ => !quoted
  | .literal _ => true
  | _ => false

end Written

namespace Outline

open Lexer

/-- The outline with more tokens. -/
def emitAll (o : Outline) (tokens : List Token) : Outline :=
  tokens.foldl emit o

section Values

variable {o : Outline} {column l k off : Nat} {text tail : List Char}

theorem skipGap_value {allowed : Bool} {c : Char} (solid : isSolid c = true) (cs : List Char) :
    skipGap false false allowed (locateFrom l k off (' ' :: c :: cs)) =
      (allowed, ⟨c, l, k + 1, off + 1⟩ :: locateFrom l (k + 2) (off + 1 + c.utf8Size) cs) := by
  have noBreak : isBreak c = false := by
    simp only [isSolid, isGap, Bool.and_eq_true, Bool.not_eq_true', Bool.or_eq_false_iff] at solid
    exact solid.1.1.2
  rw [locateFrom_space, locateFrom_cons noBreak, skipGap]
  simpa [isBreak, isOrderMark] using skipGap_isSolid solid _

/-- A value stands further right than the block of its key, so it closes none. -/
theorem step_value (deep : o.indent = column) (right : column ≤ k) {allowed : Bool} {c : Char}
    (solid : isSolid c = true) (cs : List Char) :
    (o.state allowed (locateFrom l k off (' ' :: c :: cs))).step =
      ((o.state allowed (⟨c, l, k + 1, off + 1⟩ ::
        locateFrom l (k + 2) (off + 1 + c.utf8Size) cs)).fetch ⟨c, l, k + 1, off + 1⟩
          (locateFrom l (k + 2) (off + 1 + c.utf8Size) cs)).map (·, false) := by
  have kept : o.close ((k + 1 : Nat) : Int) = o := close_of_le o (by omega)
  rw [step_state (skipGap_value solid cs), kept]

theorem reads_plain (deep : o.indent = column) (right : column ≤ k)
    (sound : isPlainText text = true) (outdents : Outdents column tail) :
    Reads 1 (o.state false (locateFrom l k off (' ' :: (text ++ '\n' :: tail))))
      (o.emit (.scalar .plain (String.ofList text))) tail := by
  obtain ⟨c, more, rfl, alphanum, -, -⟩ := exists_of_isPlainText sound
  have far : o.indent + 1 ≤ ((k + 1 : Nat) : Int) + 1 := by omega
  have feeds : '\n' ∈ (({} : Gap).push '\n').chars := List.mem_cons_self
  obtain ⟨input, ends, same⟩ := plainScalar_outdents outdents feeds (l + 1)
  have read := plainScalar_isPlainText false sound l (off + 1) far ('\n' :: tail)
  have feed : isSpace '\n' = false ∧ isBreak '\n' = true := ⟨rfl, rfl⟩
  rw [← deep] at ends
  rw [locateFrom_feed, plainScalar] at read
  simp only [feed, Bool.false_eq_true, if_false, if_true, ends, Option.map_some,
    PlainScalar.prepend, List.append_nil] at read
  have inLine := isBreak_of_isAlphanum alphanum
  rw [List.cons_append, locateFrom_cons inLine] at read
  refine .of_step ?_ (Before.reads ⟨l + 1, true, input, rfl, same⟩ 0)
  rw [List.cons_append, step_value deep right (isSolid_of_isAlphanum alphanum),
    fetch_isAlphanum alphanum, fetchPlain_of_read (s := o.state false _) rfl read]
  rfl

theorem reads_quoted (deep : o.indent = column) (right : column ≤ k)
    (sound : text.all isBraceless = true) :
    Reads 1 (o.state false (locateFrom l k off (' ' :: (quoteChars text ++ '\n' :: tail))))
      (o.emit (.scalar .doubleQuoted (String.ofList text))) tail := by
  obtain ⟨k', off', read⟩ := doubleQuoted_quoted (List.all_eq_true.mp sound) l (off + 2)
    (Nat.succ_ne_zero (k + 1)) ('\n' :: tail)
  refine .of_step ?_ (Before.reads (before_feed _ l k' off' tail) 0)
  have chars : quoteChars text ++ '\n' :: tail =
      '"' :: (text.flatMap quoteChar ++ '"' :: '\n' :: tail) := by
    simp [quoteChars]
  have read' : doubleQuoted {} (locateFrom l (k + 2) (off + 1 + '"'.utf8Size)
      (text.flatMap quoteChar ++ '"' :: '\n' :: tail)) =
        some (text, locateFrom l k' off' ('\n' :: tail)) := read
  rw [chars, step_value deep right rfl, fetch_quote, read']
  rfl

theorem stuck_braces (deep : o.indent = column) (right : column ≤ k) {rest : List Char}
    (sound : text.all isBraceless = true) :
    (o.state false (locateFrom l k off
      (' ' :: '"' :: (text.flatMap quoteChar ++ '\\' :: 'u' :: '\x7b' :: rest)))).step = none := by
  rw [step_value deep right rfl, fetch_quote]
  have refused : doubleQuoted {} (locateFrom l (k + 2) (off + 1 + '"'.utf8Size)
      (text.flatMap quoteChar ++ '\\' :: 'u' :: '\x7b' :: rest)) = none :=
    doubleQuoted_braces (List.all_eq_true.mp sound) l _ (Nat.succ_ne_zero (k + 1)) rest
  rw [refused]
  rfl

theorem blockLines_text (chomping : Chomping) {indent : Nat} {block : BlockState}
    (within : block.inLine = true) {cs : List Char} (inLine : ∀ c ∈ cs, isBreak c = false)
    (l k off : Nat) (rest : List Char) :
    blockLines false chomping indent block (locateFrom l k off (cs ++ rest)) =
      (blockLines false chomping indent block
        (locateFrom l (k + cs.length) (off + width cs) rest)).map (prepend cs) := by
  induction cs generalizing k off with
  | nil => exact (map_prepend_nil _).symm
  | cons c cs ih =>
    obtain ⟨here, behind⟩ := List.forall_mem_cons.mp inLine
    rw [List.cons_append, locateFrom_cons here, blockLines, (place_cons k off c cs).1,
      (place_cons k off c cs).2]
    simp only [within, here, if_true, Bool.false_eq_true, if_false, ih behind, Option.map_map]
    congr 1

theorem blockLines_first (chomping : Chomping) {indent : Nat} {c : Char}
    (notGap : isGap c = false) (l off : Nat) (rest : Input) :
    blockLines false chomping indent {} (⟨c, l, indent, off⟩ :: rest) =
      (blockLines false chomping indent { inLine := true } rest).map (prepend [c]) := by
  obtain ⟨noSpace, noBreak⟩ := isGap_eq_false_iff.mp notGap
  rw [blockLines]
  simp [noSpace, noBreak, BlockState.join]

theorem blockHeader_feed (l k off : Nat) (rest : Input) :
    blockHeader (⟨'\n', l, k, off⟩ :: rest) = some ({}, rest) := by
  have noDigit : increment? '\n' = some none := rfl
  simp [blockHeader, takeChomping, chomping?, takeIncrement, noDigit, skipComment, skipSpaces,
    isSpace, nextIs, atBreak, isBreak]

theorem leadingColumn_spaces (most l k off n : Nat) {c : Char} (notGap : isGap c = false)
    (cs : List Char) :
    leadingColumn most (locateFrom l k off (List.replicate n ' ' ++ c :: cs)) =
      some (max most (k + n)) := by
  obtain ⟨⟨notSpace, notTab⟩, noBreak⟩ : (c ≠ ' ' ∧ c ≠ '\t') ∧ isBreak c = false := by
    simpa [isGap, isSpace] using notGap
  induction n generalizing most k off with
  | zero =>
    rw [List.replicate_zero, List.nil_append, locateFrom_cons noBreak, leadingColumn]
    simp [notSpace, notTab, noBreak]
  | succ n ih =>
    rw [List.replicate_succ, List.cons_append, locateFrom_space, leadingColumn]
    simp only [beq_self_eq_true, if_true]
    rw [ih]
    congr 1
    omega

theorem blockScalar_literal (sound : Written.isLiteralText text = true)
    (outdents : Outdents column tail) (l k off : Nat) :
    ∃ input, blockScalar false column (locateFrom l k off ('\n' ::
        (List.replicate (column + 2) ' ' ++ (text ++ '\n' :: tail)))) =
          some (text ++ ['\n'], input) ∧
      skipGap false false true input = skipGap false false true (locateFrom (l + 2) 0 0 tail) := by
  obtain ⟨c, more, rfl, notGap, inLine⟩ : ∃ c more, text = c :: more ∧ isGap c = false ∧
      ∀ d ∈ more, isBreak d = false := by
    cases text with
    | nil => simp [Written.isLiteralText] at sound
    | cons c more =>
      simp only [Written.isLiteralText, List.head?_cons, Option.any_some, List.all_cons,
        Bool.and_eq_true, bne_iff_ne, List.all_eq_true] at sound
      obtain ⟨notSpace, printable, printableBehind⟩ := sound
      exact ⟨c, more, rfl, isGap_of_isPrintable printable notSpace,
        fun d mem => isBreak_of_isPrintable (printableBehind d mem)⟩
  have noBreak := (isGap_eq_false_iff.mp notGap).2
  have feed : isBreak '\n' = true := rfl
  obtain ⟨input, ends, same⟩ :=
    blockLines_outdents outdents (Nat.lt_add_of_pos_right Nat.two_pos) [] false (l + 2)
  refine ⟨input, ?_, same⟩
  have furthest :
      max (max 0 (0 + (column + 2))) (max ((column : Int) + 1).toNat 1) = column + 2 := by
    omega
  have start : (leadingColumn 0 (locateFrom (l + 1) 0 0
      (List.replicate (column + 2) ' ' ++ (c :: more ++ '\n' :: tail)))).map
        (fun n => max n (max ((column : Int) + 1).toNat 1)) = some (column + 2) := by
    rw [List.cons_append, leadingColumn_spaces 0 (l + 1) 0 0 _ notGap, Option.map_some, furthest]
  have lines : blockLines false .clip (column + 2) {} (locateFrom (l + 1) 0 0
      (List.replicate (column + 2) ' ' ++ (c :: more ++ '\n' :: tail))) =
        some (c :: more ++ ['\n'], input) := by
    rw [blockLines_spaces .clip {} rfl (l + 1) 0 0 (by omega), List.cons_append,
      locateFrom_cons noBreak, Nat.zero_add, blockLines_first .clip notGap,
      blockLines_text .clip rfl inLine, locateFrom_feed, blockLines]
    simp only [feed, if_true, ends]
    simp [prepend]
  rw [locateFrom_feed, blockScalar, blockHeader_feed]
  simp only [Option.bind_eq_bind, Option.bind_some, start, lines]

theorem reads_literal (deep : o.indent = column) (right : column ≤ k)
    (sound : Written.isLiteralText text = true) (outdents : Outdents column tail) :
    Reads 1 (o.state false (locateFrom l k off (' ' :: '|' :: '\n' ::
        (List.replicate (column + 2) ' ' ++ (text ++ '\n' :: tail)))))
      (o.emit (.scalar .literal (String.ofList (text ++ ['\n'])))) tail := by
  obtain ⟨input, read, same⟩ :=
    blockScalar_literal sound outdents l (k + 2) (off + 1 + '|'.utf8Size)
  refine .of_step ?_ (Before.reads ⟨l + 2, true, input, rfl, same⟩ 0)
  rw [← deep] at read
  rw [step_value deep right rfl, fetch_bar rfl,
    fetchBlockScalar_of_read (s := o.state false _) rfl read]
  rfl

/-- The lexer within a list between brackets. -/
def listing (o : Outline) (possibleKey : Option PossibleKey) (keyAllowed : Bool)
    (input : Input) : Lexer where
  input
  tokens := o.tokens
  columns := o.columns
  possibleKey
  outerKeys := [none]
  keyAllowed

theorem closeBlocks_listing (o : Outline) (possibleKey : Option PossibleKey) (keyAllowed : Bool)
    (input : Input) (column : Int) :
    (o.listing possibleKey keyAllowed input).closeBlocks column =
      o.listing possibleKey keyAllowed input := rfl

theorem dropStaleKeys_listing (o : Outline) (input : Input) (c : Located) :
    (o.listing none true input).dropStaleKeys c = some (o.listing none true input) := rfl

theorem noteKey_listing (o : Outline) (input : Input) (c : Located) :
    (o.listing none true input).noteKey c = some (o.listing
      (some ⟨false, o.tokens.length, c.line, c.column, c.offset⟩) true input) := rfl

theorem step_listing_text (o : Outline) (l off : Nat) (tail : List Char)
    (sound : isPlainText text = true) (far : o.indent + 1 ≤ (k : Int) + 1) :
    ∃ (key : PossibleKey) (k' off' : Nat), key.required = false ∧
      (o.listing none true (locateFrom l k off (text ++ ']' :: '\n' :: tail))).step =
        some ((o.emit (.scalar .plain (String.ofList text))).listing (some key) false
          (locateFrom l k' off' (']' :: '\n' :: tail)), false) := by
  obtain ⟨c, more, rfl, alphanum, -, -⟩ := exists_of_isPlainText sound
  have inLine := isBreak_of_isAlphanum alphanum
  have read := plainScalar_isPlainText true sound l off far (']' :: '\n' :: tail)
  have stops (k off : Nat) : plainScalar true (o.indent + 1) {}
      (locateFrom l k off (']' :: '\n' :: tail)) =
        some ⟨[], false, locateFrom l k off (']' :: '\n' :: tail)⟩ := by
    rw [locateFrom_cons rfl, plainScalar]
    simp [isSpace, isBreak, plainRefused, plainEnds, Gap.isBroken]
  rw [stops, Option.map_some, List.cons_append, locateFrom_cons inLine] at read
  refine ⟨⟨false, o.tokens.length, l, k, off⟩, k + (c :: more).length, off + width (c :: more),
    rfl, ?_⟩
  have solid : isSolid c = true := isSolid_of_isAlphanum alphanum
  rw [List.cons_append, locateFrom_cons inLine,
    step_of_gap (s := o.listing none true _) (skipGap_isSolid solid _)
      (dropStaleKeys_listing o _ _),
    closeBlocks_listing, fetch_isAlphanum alphanum,
    fetchPlain_of_read (noteKey_listing o _ _) read]
  simp only [PlainScalar.prepend, List.append_nil]
  rfl

theorem step_listing_closing (o : Outline) {key : PossibleKey}
    (notRequired : key.required = false) :
    (o.listing (some key) false (locateFrom l k off (']' :: '\n' :: tail))).step =
      some ((o.emit .flowListEnd).state false (locateFrom l (k + 1) (off + 1) ('\n' :: tail)),
        false) := by
  let closing : Located := ⟨']', l, k, off⟩
  let rest := locateFrom l (k + 1) (off + 1) ('\n' :: tail)
  have input : locateFrom l k off (']' :: '\n' :: tail) = closing :: rest :=
    locateFrom_cons rfl l k off _
  have gap : skipGap true false false (closing :: rest) = (false, closing :: rest) :=
    skipGap_isSolid rfl rest
  -- Whether the key has become stale or not, the bracket gives it up.
  obtain ⟨key', given, dropped⟩ : ∃ key', dropKey key' = some none ∧
      dropStaleKey closing (some key) = some key' := by
    by_cases stale : key.line < l ∨ key.offset + 1024 < off
    · exact ⟨none, rfl, by simp [dropStaleKey, closing, stale, dropKey, notRequired]⟩
    · exact ⟨some key, by simp [dropKey, notRequired], by simp [dropStaleKey, closing, stale]⟩
  have fresh : (o.listing (some key) false (closing :: rest)).dropStaleKeys closing =
      some (o.listing key' false (closing :: rest)) := by
    simp only [dropStaleKeys, listing, dropped]
    rfl
  have ends : (o.listing key' false (closing :: rest)).fetchFlowEnd rest .flowListEnd =
      some ((o.emit .flowListEnd).state false rest) := by
    simp only [fetchFlowEnd, giveUpKey, listing, given]
    rfl
  rw [input, step_of_gap (s := o.listing (some key) false _) gap fresh, closeBlocks_listing,
    fetch_closing, ends]
  rfl

theorem reads_listed (deep : o.indent = column) (right : column ≤ k)
    (sound : isPlainText text = true) :
    Reads 3 (o.state false (locateFrom l k off (' ' :: '[' :: (text ++ ']' :: '\n' :: tail))))
      (o.emitAll [.flowListStart, .scalar .plain (String.ofList text), .flowListEnd]) tail := by
  have opens : (o.state false (locateFrom l k off
      (' ' :: '[' :: (text ++ ']' :: '\n' :: tail)))).step =
        some ((o.emit .flowListStart).listing none true
          (locateFrom l (k + 2) (off + 2) (text ++ ']' :: '\n' :: tail)), false) := by
    rw [step_value deep right rfl, fetch_bracket]
    rfl
  have far : (o.emit .flowListStart).indent + 1 ≤ ((k + 2 : Nat) : Int) + 1 := by
    have same : (o.emit .flowListStart).indent = o.indent := rfl
    omega
  obtain ⟨key, k', off', notRequired, reads⟩ :=
    step_listing_text (o.emit .flowListStart) l (off + 2) tail sound far
  exact .of_step opens (.of_step reads (.of_step (step_listing_closing _ notRequired)
    (Before.reads (before_feed _ l (k' + 1) (off' + 1) tail) 0)))

/-- What stands behind a colon is read, and the end of its line. -/
theorem reads_value (w : Written) (deep : o.indent = column) (right : column ≤ k)
    (sound : w.isSound = true) (outdents : w.isOpen = true → Outdents column tail) :
    Reads w.tokens.length (o.state false (locateFrom l k off (w.chars column ++ tail)))
      (o.emitAll w.tokens) tail := by
  cases w with
  | nothing => exact Before.reads (before_feed o l k off tail) 0
  | inline quoted text =>
    cases quoted with
    | false =>
      have chars : (Written.inline false text).chars column ++ tail =
          ' ' :: (text.toList ++ '\n' :: tail) := by
        simp [Written.chars]
      have reads := @reads_plain o column l k off text.toList tail deep right sound (outdents rfl)
      rw [String.ofList_toList] at reads
      rwa [chars]
    | true =>
      have chars : (Written.inline true text).chars column ++ tail =
          ' ' :: (quoteChars text.toList ++ '\n' :: tail) := by
        simp [Written.chars]
      have reads := @reads_quoted o column l k off text.toList tail deep right sound
      rw [String.ofList_toList] at reads
      rwa [chars]
  | literal text =>
    have chars : (Written.literal text).chars column ++ tail = ' ' :: '|' :: '\n' ::
        (List.replicate (column + 2) ' ' ++ (text.toList ++ '\n' :: tail)) := by
      simp [Written.chars]
    have line : String.ofList (text.toList ++ ['\n']) = text ++ "\n" := by
      simp
    have reads := @reads_literal o column l k off text.toList tail deep right sound (outdents rfl)
    rw [line] at reads
    rwa [chars]
  | listed text =>
    have chars : (Written.listed text).chars column ++ tail =
        ' ' :: '[' :: (text.toList ++ ']' :: '\n' :: tail) := by
      simp [Written.chars]
    have reads := @reads_listed o column l k off text.toList tail deep right sound
    rw [String.ofList_toList] at reads
    rwa [chars]

end Values

end Outline

end ToolTree.Yaml
