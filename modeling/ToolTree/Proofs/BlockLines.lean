import ToolTree.Proofs.Entries
import ToolTree.Text.Lines

/-!
Block text read line by line.

A line is blank, a comment or an entry of a map, perhaps behind a dash. The lexer takes at most
as many steps for a line as the line has characters, so its fuel is enough for any text of such
lines (`tokens?_lines`). What each line adds to the tokens depends on the columns of the open
blocks only (`Outline.read`). The one way in which a quoted text goes wrong is a code point between
braces: then the whole text has no tokens (`tokens?_brokenEntry`).
-/

namespace ToolTree.Yaml

open Text

/-! ### Lines -/

/-- A line of block text: a blank one, a comment at a column, or an entry of a map, whose key
stands at a column or behind a dash there. -/
inductive Line where
  | blank
  | comment (column : Nat) (text : String)
  | entry (column : Nat) (dash : Bool) (key : String) (value : Written)
  deriving DecidableEq, Repr

namespace Line

/-- The column of the key of an entry. -/
def keyColumn (column : Nat) (dash : Bool) : Nat :=
  if dash then column + 2 else column

/-- The characters of a line, its end included. -/
def chars : Line → List Char
  | .blank => ['\n']
  | .comment column text => List.replicate column ' ' ++ '#' :: text.toList ++ ['\n']
  | .entry column dash key value =>
    List.replicate column ' ' ++ ((if dash then ['-', ' '] else []) ++
      (key.toList ++ ':' :: value.chars (keyColumn column dash)))

/-- Whether what stands on the line is read as it stands. -/
def isSound : Line → Bool
  | .blank => true
  | .comment _ text => text.toList.all isPrintable
  | .entry _ _ key value => isPlainText key.toList && width key.toList ≤ 1024 && value.isSound

/-- Whether a text may follow a line: behind a scalar that goes on it must stand further left. -/
def Allows (tail : List Char) : Line → Prop
  | .entry column dash _ value =>
    value.isOpen = true → Outline.Outdents (keyColumn column dash) tail
  | _ => True

/-- Whether each line is read as it stands and is followed by what may follow it. -/
def Fit (tail : List Char) : List Line → Prop
  | [] => True
  | line :: rest =>
    line.isSound = true ∧ line.Allows (rest.flatMap chars ++ tail) ∧ Fit tail rest

end Line

namespace Outline

open Lexer

/-- The outline behind a dash at a column. -/
def item (o : Outline) (column : Nat) : Outline :=
  ((o.close column).nest column .blockListStart).emit .blockEntry

/-- The outline behind a line. -/
def read (o : Outline) : Line → Outline
  | .blank => o
  | .comment _ _ => o
  | .entry column dash key value =>
    ((if dash then o.item column else o).enter (Line.keyColumn column dash) key).emitAll
      value.tokens

theorem step_dash {o : Outline} {a : Bool} {input : Input} {l k off : Nat} {after : List Char}
    (gap : skipGap false false a input = (true, locateFrom l k off ('-' :: ' ' :: after))) :
    (o.state a input).step =
      some ((o.item k).state true (locateFrom l (k + 1) (off + 1) (' ' :: after)), false) := by
  rw [locateFrom_cons rfl] at gap
  rw [step_state gap, fetch_dash rfl]
  have opens : ((o.close k).state true (⟨'-', l, k, off⟩ ::
      locateFrom l (k + 1) (off + '-'.utf8Size) (' ' :: after))).fetchBlockEntry ⟨'-', l, k, off⟩
        (locateFrom l (k + 1) (off + '-'.utf8Size) (' ' :: after)) =
      some ((o.item k).state true (locateFrom l (k + 1) (off + 1) (' ' :: after))) := by
    simp only [fetchBlockEntry, inFlow_state, openBlockHere_state]
    rfl
  rw [opens]
  rfl

/-- An entry without a dash is read. -/
theorem reads_key {o : Outline} {a : Bool} {input : Input} {l k off : Nat}
    {key : String} {tail : List Char} {value : Written}
    (gap : skipGap false false a input =
      (true, locateFrom l k off (key.toList ++ ':' :: (value.chars k ++ tail))))
    (plain : isPlainText key.toList = true) (short : width key.toList ≤ 1024)
    (sound : value.isSound = true) (outdents : value.isOpen = true → Outdents k tail) :
    Reads (value.tokens.length + 2) (o.state a input) ((o.enter k key).emitAll value.tokens)
      tail := by
  have follows : (value.chars k ++ tail).head?.all isGap = true := by
    cases value <;> rfl
  have right : k ≤ k + key.toList.length + 1 := by omega
  have steps := Reads.of_step (step_key gap plain follows) (.of_step (step_colon short follows)
    (reads_value value (indent_enter o k _) right sound outdents))
  rwa [String.ofList_toList] at steps

theorem Reads.mono {o : Outline} {tail : List Char} {s : Lexer} {m n : Nat}
    (reads : Reads m s o tail) (le : m ≤ n) : Reads n s o tail := by
  obtain ⟨i, s', few, goes, before⟩ := reads
  exact ⟨i, s', Nat.le_trans few le, goes, before⟩

theorem length_tokens_le (value : Written) (column : Nat) :
    value.tokens.length ≤ (value.chars column).length := by
  cases value <;> simp [Written.tokens, Written.chars]

theorem skipGap_isPlainText {text : List Char} (plain : isPlainText text = true) (l k off : Nat)
    (tail : List Char) :
    skipGap false false true (locateFrom l k off (text ++ tail)) =
      (true, locateFrom l k off (text ++ tail)) := by
  obtain ⟨c, more, rfl, alphanum, -, -⟩ := exists_of_isPlainText plain
  have solid : isSolid c = true := isSolid_of_isAlphanum alphanum
  have inLine := isBreak_of_isAlphanum alphanum
  rw [List.cons_append, locateFrom_cons inLine, skipGap_isSolid solid]

theorem length_pos_of_isPlainText {text : List Char} (plain : isPlainText text = true) :
    0 < text.length := by
  obtain ⟨c, more, rfl, -⟩ := exists_of_isPlainText plain
  exact Nat.succ_pos more.length

/-- An entry has as many characters as it takes steps: two for its key, one for its dash, and those
for its value. -/
theorem steps_le_length (column : Nat) (dash : Bool) {key : String} (value : Written)
    (plain : isPlainText key.toList = true) :
    value.tokens.length + 2 + (if dash then 1 else 0) ≤
      (Line.entry column dash key value).chars.length := by
  have few := length_tokens_le value (Line.keyColumn column dash)
  have nonempty := length_pos_of_isPlainText plain
  cases dash <;> simp [Line.chars] <;> omega

theorem skipGap_comment {text : List Char} (printable : text.all isPrintable = true)
    (l k off : Nat) (tail : List Char) :
    skipGap false true true (locateFrom l k off (text ++ '\n' :: tail)) =
      skipGap false false true (locateFrom (l + 1) 0 0 tail) := by
  induction text generalizing k off with
  | nil =>
    rw [List.nil_append, locateFrom_feed, skipGap]
    simp [isBreak]
  | cons c text ih =>
    simp only [List.all_cons, Bool.and_eq_true] at printable
    have noBreak := isBreak_of_isPrintable printable.1
    rw [List.cons_append, locateFrom_cons noBreak, skipGap]
    simp only [noBreak, Bool.false_eq_true, if_false, if_true]
    exact ih printable.2 (k + 1) (off + c.utf8Size)

/-- A line is read, in as many steps at most as it has characters. -/
theorem reads_line {o : Outline} {s : Lexer} {tail : List Char} {line : Line}
    (sound : line.isSound = true) (allows : line.Allows tail)
    (before : o.Before (line.chars ++ tail) s) :
    Reads line.chars.length s (o.read line) tail := by
  obtain ⟨l, a, input, rfl, gap⟩ := before
  cases line with
  | blank =>
    refine Before.reads ⟨l + 1, a, input, rfl, ?_⟩ _
    rw [gap, Line.chars, List.singleton_append, locateFrom_feed, skipGap]
    simp [isBreak]
  | comment column text =>
    refine Before.reads ⟨l + 1, a, input, rfl, ?_⟩ _
    have chars : (Line.comment column text).chars ++ tail =
        List.replicate column ' ' ++ '#' :: (text.toList ++ '\n' :: tail) := by
      simp [Line.chars]
    rw [gap, chars, skipGap_spaces, locateFrom_cons rfl, skipGap]
    simp only [isBreak, isOrderMark]
    simpa using skipGap_comment sound l _ _ tail
  | entry column dash key value =>
    simp only [Line.isSound, Bool.and_eq_true, decide_eq_true_eq] at sound
    obtain ⟨⟨plain, short⟩, sound⟩ := sound
    have few := steps_le_length column dash value plain
    cases dash with
    | false =>
      have chars : (Line.entry column false key value).chars ++ tail =
          List.replicate column ' ' ++ (key.toList ++ ':' :: (value.chars column ++ tail)) := by
        simp [Line.chars, Line.keyColumn]
      rw [chars, skipGap_spaces, skipGap_isPlainText plain, Nat.zero_add] at gap
      exact (reads_key gap plain short sound allows).mono few
    | true =>
      have chars : (Line.entry column true key value).chars ++ tail =
          List.replicate column ' ' ++
            '-' :: ' ' :: (key.toList ++ ':' :: (value.chars (column + 2) ++ tail)) := by
        simp [Line.chars, Line.keyColumn]
      have solid : isSolid '-' = true := rfl
      rw [chars, skipGap_spaces, locateFrom_cons rfl, skipGap_isSolid solid, Nat.zero_add] at gap
      have behind : skipGap false false true (locateFrom l (column + 1) (column + 1)
          (' ' :: (key.toList ++ ':' :: (value.chars (column + 2) ++ tail)))) =
            (true, locateFrom l (column + 2) (column + 2)
              (key.toList ++ ':' :: (value.chars (column + 2) ++ tail))) :=
        (skipGap_spaces l (column + 1) (column + 1) 1 _).trans (skipGap_isPlainText plain _ _ _ _)
      exact (Reads.of_step (step_dash gap) (reads_key behind plain short sound allows)).mono few

/-- Lines are read one by one. -/
theorem reads_lines {o : Outline} {s : Lexer} {tail : List Char} {lines : List Line}
    (fit : Line.Fit tail lines) (before : o.Before (lines.flatMap Line.chars ++ tail) s) :
    Reads (lines.flatMap Line.chars).length s (lines.foldl read o) tail := by
  induction lines generalizing o s with
  | nil => exact before.reads 0
  | cons line rest ih =>
    obtain ⟨sound, allows, fitBehind⟩ := fit
    rw [List.flatMap_cons, List.append_assoc] at before
    obtain ⟨m, s', few, goes, next⟩ := reads_line sound allows before
    obtain ⟨n, s'', fewBehind, goesBehind, last⟩ := ih fitBehind next
    refine ⟨m + n, s'', ?_, goes.trans goesBehind, last⟩
    rw [List.flatMap_cons, List.length_append]
    omega

end Outline

/-! ### Lines that fit -/

namespace Line

/-- Whether what follows blank lines stands at a column at most. -/
def outdented (column : Nat) : List Line → Bool
  | [] => true
  | .blank :: rest => outdented column rest
  | .comment k _ :: _ => k ≤ column
  | .entry k _ _ _ :: _ => k ≤ column

/-- Whether other lines may follow a line. -/
def allows (rest : List Line) : Line → Bool
  | .entry column dash _ value => !value.isOpen || outdented (keyColumn column dash) rest
  | _ => true

/-- Whether each line is followed by what may follow it. -/
def areLaidOut : List Line → Bool
  | [] => true
  | line :: rest => line.allows rest && areLaidOut rest

theorem outdents_of_outdented {column : Nat} {lines : List Line}
    (sound : ∀ line ∈ lines, line.isSound = true) (outdented : outdented column lines = true) :
    Outline.Outdents column (lines.flatMap chars) := by
  induction lines with
  | nil => exact .ends
  | cons line rest ih =>
    obtain ⟨here, soundBehind⟩ := List.forall_mem_cons.mp sound
    cases line with
    | blank => exact .blank (ih soundBehind outdented)
    | comment k text =>
      have left : k ≤ column := of_decide_eq_true outdented
      rw [List.flatMap_cons, chars, List.append_assoc, List.append_assoc]
      exact .line left rfl
    | entry k dash key value =>
      have left : k ≤ column := of_decide_eq_true outdented
      simp only [isSound, Bool.and_eq_true] at here
      obtain ⟨c, more, key, alphanum, -, -⟩ := exists_of_isPlainText here.1.1
      rw [List.flatMap_cons, chars, List.append_assoc, key]
      cases dash with
      | false =>
        rw [if_neg Bool.false_ne_true, List.nil_append, List.append_assoc, List.cons_append]
        exact .line left (isGap_of_isAlphanum alphanum)
      | true => exact .line left rfl

theorem fit_of_areLaidOut {lines : List Line} (sound : ∀ line ∈ lines, line.isSound = true)
    (laidOut : areLaidOut lines = true) : Fit [] lines := by
  induction lines with
  | nil => trivial
  | cons line rest ih =>
    simp only [areLaidOut, Bool.and_eq_true] at laidOut
    obtain ⟨here, soundBehind⟩ := List.forall_mem_cons.mp sound
    refine ⟨here, ?_, ih soundBehind laidOut.2⟩
    cases line with
    | blank => trivial
    | comment k text => trivial
    | entry column dash key value =>
      intro isOpen
      have left : outdented (keyColumn column dash) rest = true := by
        simpa [allows, isOpen] using laidOut.1
      rw [List.append_nil]
      exact outdents_of_outdented soundBehind left

end Line

/-! ### Texts that are spelled out -/

-- A text that is given in full is also a list of characters put together. Read that way it is
-- checked at once, while it takes long to take it apart.

theorem all_ofList {p : Char → Bool} {cs : List Char} (all : cs.all p = true) :
    (String.ofList cs).toList.all p = true := by
  rwa [String.toList_ofList]

theorem Line.isSound_comment (column : Nat) {cs : List Char}
    (printable : cs.all isPrintable = true) :
    (Line.comment column (String.ofList cs)).isSound = true :=
  all_ofList printable

theorem Line.isSound_entry (column : Nat) (dash : Bool) {key : List Char} {value : Written}
    (plain : isPlainText key = true) (short : width key ≤ 1024) (sound : value.isSound = true) :
    (Line.entry column dash (String.ofList key) value).isSound = true := by
  simp [isSound, plain, short, sound]

theorem Written.isSound_plain {cs : List Char} (plain : isPlainText cs = true) :
    (Written.plain (String.ofList cs)).isSound = true := by
  simp [isSound, plain]

theorem Written.isSound_listed {cs : List Char} (plain : isPlainText cs = true) :
    (Written.listed (String.ofList cs)).isSound = true := by
  simp [isSound, plain]

theorem Written.isSound_literal {cs : List Char} (literal : isLiteralText cs = true) :
    (Written.literal (String.ofList cs)).isSound = true := by
  simp [isSound, literal]

/-! ### The texts of lines -/

/-- The spaces before a column. -/
def indentation (column : Nat) : String :=
  String.ofList (List.replicate column ' ')

/-- The texts of an entry that begins in a way, for a key at a column. -/
def Written.texts (column : Nat) (beginning : String) : Written → List String
  | .nothing => [beginning]
  | .inline quoted text => [beginning ++ " " ++ if quoted then quote text else text]
  | .literal text => [beginning ++ " |", indentation (column + 2) ++ text]
  | .listed text => [beginning ++ " [" ++ text ++ "]"]

/-- The texts of a line: two for an entry with a literal scalar, else one. -/
def Line.texts : Line → List String
  | .blank => [""]
  | .comment column text => [indentation column ++ "#" ++ text]
  | .entry column dash key value =>
    value.texts (keyColumn column dash)
      (indentation column ++ (if dash then "- " else "") ++ key ++ ":")

theorem toList_unlines (texts : List String) :
    (unlines texts).toList = texts.flatMap fun text => text.toList ++ ['\n'] := by
  simp [unlines, List.flatMap, List.map_map, Function.comp_def]

theorem Line.toList_texts (line : Line) :
    (line.texts.flatMap fun text => text.toList ++ ['\n']) = line.chars := by
  cases line with
  | blank => rfl
  | comment column text => simp [Line.texts, Line.chars, indentation]
  | entry column dash key value =>
    rcases value with _ | ⟨_ | _, _⟩ | _ | _ <;> cases dash <;>
      simp [Line.texts, Line.chars, Written.texts, Written.chars, indentation, quote]

/-- The characters of lines are those of their texts. -/
theorem toList_unlines_texts (lines : List Line) :
    (unlines (lines.flatMap Line.texts)).toList = lines.flatMap Line.chars := by
  rw [toList_unlines, List.flatMap_assoc]
  exact List.flatMap_congr fun line _ => line.toList_texts

/-! ### Whole texts -/

/-- Whether a character is printable or ends a line. -/
def isText (c : Char) : Bool :=
  c == '\n' || isPrintable c

theorem isText_of_isPrintable {c : Char} (printable : isPrintable c = true) : isText c = true := by
  simp [isText, printable]

theorem isAllowed_of_isText {c : Char} (text : isText c = true) : isAllowed c = true := by
  simp only [isText, Bool.or_eq_true, beq_iff_eq] at text
  rcases text with rfl | printable
  · rfl
  · exact isAllowed_of_isPrintable printable

theorem foldBreaks_append {cs : List Char} (text : cs.all isText = true) (rest : List Char) :
    foldBreaks (cs ++ rest) = cs ++ foldBreaks rest := by
  induction cs with
  | nil => rfl
  | cons c cs ih =>
    simp only [List.all_cons, Bool.and_eq_true] at text
    have notReturn : c ≠ '\r' := by
      rintro rfl
      exact absurd text.1 (by decide)
    have notNext : c ≠ '\u0085' := by
      rintro rfl
      exact absurd text.1 (by decide +kernel)
    rw [List.cons_append, foldBreaks.eq_2 _ _ (fun _ same => absurd same notReturn)]
    simp [notReturn, notNext, ih text.2]

theorem all_isText {cs : List Char} (printable : ∀ c ∈ cs, isPrintable c = true) :
    cs.all isText = true :=
  List.all_eq_true.mpr fun c mem => isText_of_isPrintable (printable c mem)

theorem all_isText_flatMap {text : List Char} (braceless : text.all isBraceless = true) :
    (text.flatMap quoteChar).all isText = true := by
  refine all_isText ?_
  intro c mem
  obtain ⟨d, mem, written⟩ := List.mem_flatMap.mp mem
  have quotation := quotation_of_isBraceless (List.all_eq_true.mp braceless d mem)
  generalize quoteChar d = w at quotation written
  cases quotation with
  | itself printable _ _ => rwa [List.mem_singleton.mp written]
  | letter escape printable =>
    simp only [List.mem_cons, List.not_mem_nil, or_false] at written
    rcases written with rfl | rfl
    · decide
    · exact printable

theorem all_isText_of_isPlainText {text : List Char} (plain : isPlainText text = true) :
    text.all isText = true := by
  obtain ⟨_, _, rfl, -, all, -⟩ := exists_of_isPlainText plain
  refine all_isText ?_
  intro c mem
  rcases all c mem with rfl | plain
  · decide
  · exact isPrintable_of_isPlain plain

theorem Written.all_isText {value : Written} (sound : value.isSound = true) (column : Nat) :
    (value.chars column).all isText = true := by
  have feed : isText '\n' = true := rfl
  have space : isText ' ' = true := by decide
  cases value with
  | nothing => rfl
  | inline quoted text =>
    have quote : isText '"' = true := by decide
    cases quoted with
    | false => simp [Written.chars, feed, space, all_isText_of_isPlainText sound]
    | true => simp [Written.chars, quoteChars, feed, space, quote, all_isText_flatMap sound]
  | literal text =>
    have bar : isText '|' = true := by decide
    simp only [Written.isSound, Written.isLiteralText, Bool.and_eq_true, List.all_eq_true] at sound
    have inside := Yaml.all_isText sound.2
    simp [Written.chars, feed, space, bar, inside]
  | listed text =>
    have brackets : isText '[' = true ∧ isText ']' = true := by decide
    simp [Written.chars, feed, space, brackets, all_isText_of_isPlainText sound]

theorem Line.all_isText {line : Line} (sound : line.isSound = true) :
    line.chars.all isText = true := by
  have feed : isText '\n' = true := rfl
  have space : isText ' ' = true := by decide
  cases line with
  | blank => rfl
  | comment column text =>
    have hash : isText '#' = true := by decide
    have inside := Yaml.all_isText (List.all_eq_true.mp sound)
    simp [Line.chars, feed, space, hash, inside]
  | entry column dash key value =>
    have marks : isText '-' = true ∧ isText ':' = true := by decide
    simp only [Line.isSound, Bool.and_eq_true] at sound
    have keyText := all_isText_of_isPlainText sound.1.1
    have valueText := Written.all_isText sound.2 (Line.keyColumn column dash)
    cases dash <;> simp [Line.chars, space, marks, keyText, valueText]

theorem Line.all_isText_flatMap {tail : List Char} {lines : List Line} (fit : Line.Fit tail lines) :
    (lines.flatMap Line.chars).all isText = true := by
  induction lines with
  | nil => rfl
  | cons line rest ih =>
    obtain ⟨sound, -, fitBehind⟩ := fit
    rw [List.flatMap_cons, List.all_append, Line.all_isText sound, ih fitBehind, Bool.and_self]

namespace Outline

/-- The tokens of an outline when all blocks are closed, in their order. -/
def finish (o : Outline) : List Token :=
  (o.close (-1)).tokens.reverse

theorem step_end {o : Outline} {s : Lexer} (before : o.Before [] s) :
    ∃ s', s.step = some (s', true) ∧ s'.tokens.reverse = o.finish := by
  obtain ⟨l, a, input, rfl, gap⟩ := before
  have here : Lexer.skipGap (o.state a input).inFlow false (o.state a input).keyAllowed
      (o.state a input).input = (true, []) := gap
  refine ⟨(o.close (-1)).state true [], ?_, rfl⟩
  rw [Lexer.step, here]
  rfl

theorem run_of_reads {o : Outline} {s : Lexer} {n : Nat} (reads : Reads n s o []) :
    (Lexer.run (n + 1) s).map (fun s => s.tokens.reverse) = some o.finish := by
  obtain ⟨m, s', few, goes, before⟩ := reads
  obtain ⟨s'', step, tokens⟩ := step_end before
  have fuel : n + 1 = n - m + 1 + m := by omega
  rw [fuel, goes, Lexer.run, step, Option.map_some, tokens]

end Outline

theorem length_locateFrom (l k o : Nat) (cs : List Char) :
    (locateFrom l k o cs).length = cs.length := by
  induction cs generalizing l k o with
  | nil => rfl
  | cons c cs ih =>
    unfold locateFrom
    split <;> simp [ih]

/-- The tokens of a text are those that its lines give one after the other. -/
theorem tokens?_lines {lines : List Line} (fit : Line.Fit [] lines) :
    tokens? (lines.flatMap Line.chars) = some (lines.foldl Outline.read {}).finish := by
  have text := Line.all_isText_flatMap fit
  have allowed : (lines.flatMap Line.chars).all isAllowed = true :=
    List.all_eq_true.mpr fun c mem => isAllowed_of_isText (List.all_eq_true.mp text c mem)
  have located : locate (lines.flatMap Line.chars) =
      locateFrom 0 0 0 (lines.flatMap Line.chars ++ []) := by
    have folded := foldBreaks_append text []
    rw [List.append_nil] at folded
    rw [locate, folded]
    rfl
  have before : ({} : Outline).Before (lines.flatMap Line.chars ++ [])
      { input := locate (lines.flatMap Line.chars) } :=
    ⟨0, true, _, rfl, by rw [located]⟩
  have reads := Outline.run_of_reads (Outline.reads_lines fit before)
  have length : (locate (lines.flatMap Line.chars)).length = (lines.flatMap Line.chars).length := by
    rw [located, List.append_nil, length_locateFrom]
  rw [tokens?, if_pos allowed]
  simp only [length]
  exact reads

/-- An entry at a column up to the brace of a code point in its quoted text. -/
def brokenEntry (column : Nat) (key text : List Char) : List Char :=
  List.replicate column ' ' ++
    (key ++ ':' :: ' ' :: '"' :: (text.flatMap quoteChar ++ ['\\', 'u', '\x7b']))

theorem all_isText_brokenEntry {column : Nat} {key text : List Char}
    (plain : isPlainText key = true) (braceless : text.all isBraceless = true) :
    (brokenEntry column key text).all isText = true := by
  have marks : [' ', ':', '"', '\\', 'u', '\x7b'].all isText = true := by decide
  have keyText := all_isText_of_isPlainText plain
  have inside := all_isText_flatMap braceless
  simp only [List.all_cons, List.all_nil, Bool.and_eq_true] at marks
  simp [brokenEntry, marks, keyText, inside]

theorem stuck_of_brokenEntry {o : Outline} {s : Lexer} {column : Nat} {key text rest : List Char}
    (plain : isPlainText key = true) (short : width key ≤ 1024)
    (braceless : text.all isBraceless = true)
    (before : o.Before (brokenEntry column key text ++ rest) s) (fuel : Nat) :
    Lexer.run fuel s = none := by
  obtain ⟨l, a, input, rfl, gap⟩ := before
  have chars : brokenEntry column key text ++ rest = List.replicate column ' ' ++
      (key ++ ':' :: ' ' :: '"' :: (text.flatMap quoteChar ++ '\\' :: 'u' :: '\x7b' :: rest)) := by
    simp [brokenEntry]
  rw [chars, Outline.skipGap_spaces, Outline.skipGap_isPlainText plain] at gap
  have stuck : ((o.enter (0 + column) (String.ofList key)).state false
      (locateFrom l (0 + column + key.length + 1) (0 + column + width key + 1)
        (' ' :: '"' :: (text.flatMap quoteChar ++ '\\' :: 'u' :: '\x7b' :: rest)))).step = none :=
    Outline.stuck_braces (Outline.indent_enter o (0 + column) _) (by omega) braceless
  cases fuel with
  | zero => rfl
  | succ fuel =>
    rw [Lexer.run, Outline.step_key gap plain rfl]
    cases fuel with
    | zero => rfl
    | succ fuel =>
      simp only
      rw [Lexer.run, Outline.step_colon short rfl]
      exact Lexer.run_of_stuck stuck fuel

/-- A text has no tokens when, behind lines that are read, an entry is quoted with a code point
between braces. -/
theorem tokens?_brokenEntry {lines : List Line} {column : Nat} {key text : List Char}
    (fit : ∀ tail, Line.Fit (brokenEntry column key text ++ tail) lines)
    (plain : isPlainText key = true) (short : width key ≤ 1024)
    (braceless : text.all isBraceless = true) (rest : List Char) :
    tokens? (lines.flatMap Line.chars ++ (brokenEntry column key text ++ rest)) = none := by
  have located : locate (lines.flatMap Line.chars ++ (brokenEntry column key text ++ rest)) =
      locateFrom 0 0 0
        (lines.flatMap Line.chars ++ (brokenEntry column key text ++ foldBreaks rest)) := by
    rw [locate, foldBreaks_append (Line.all_isText_flatMap (fit [])),
      foldBreaks_append (all_isText_brokenEntry plain braceless)]
  have before : ({} : Outline).Before
      (lines.flatMap Line.chars ++ (brokenEntry column key text ++ foldBreaks rest))
      { input := locate (lines.flatMap Line.chars ++ (brokenEntry column key text ++ rest)) } :=
    ⟨0, true, _, rfl, by rw [located]⟩
  obtain ⟨m, s, few, goes, behind⟩ := Outline.reads_lines (fit (foldBreaks rest)) before
  have length : (lines.flatMap Line.chars).length ≤
      (locate (lines.flatMap Line.chars ++ (brokenEntry column key text ++ rest))).length := by
    rw [located, length_locateFrom, List.length_append]
    omega
  unfold tokens?
  split
  case isTrue =>
    have fuel : (locate (lines.flatMap Line.chars ++
        (brokenEntry column key text ++ rest))).length + 1 =
      (locate (lines.flatMap Line.chars ++ (brokenEntry column key text ++ rest))).length + 1 - m +
        m := by omega
    simp only
    rw [fuel, goes, stuck_of_brokenEntry plain short braceless behind]
    rfl
  case isFalse => rfl

end ToolTree.Yaml
