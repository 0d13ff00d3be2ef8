import ToolTree.Proofs.Literals
import ToolTree.Text.Lines

/-!
Lines of source text, cut into words, literals and marks.

`lexemes` reads a line up to two slashes, behind which a comment stands. What stands between an
opening and the mark that closes it, as the arguments of a call do, is listed by `between` for all
lines of a text. Texts that end where a lexeme ends are put together (`Cuts.append`), and a literal
that `Text.quote` writes is one lexeme, whatever text is quoted (`cuts_quote`).
-/

namespace ToolTree.Source

/-! ### Lexemes -/

/-- The parts of a line: words, literals as they are spelt, and single other characters. -/
inductive Lexeme where
  | word (text : String)
  | literal (text : String)
  | mark (c : Char)
  deriving DecidableEq, Repr

/-- The characters of words. The mark of a raw name counts as one of them. -/
def isWordChar (c : Char) : Bool :=
  c.isAlphanum || c == '_' || c == '#'

/-- Where the reading of a line stands, with the characters that are not told yet: behind those of a
word, which may be none, among those of a literal, or behind a backslash there. -/
inductive LexemeState where
  | word (cs : List Char)
  | literal (cs : List Char)
  | escape (cs : List Char)

/-- The word of some characters, if there are any. -/
def wordOf (cs : List Char) : List Lexeme :=
  if cs = [] then [] else [.word (String.ofList cs)]

/-- The lexemes from a state on. A literal that is not closed is none. -/
def lexemesFrom : LexemeState → List Char → List Lexeme
  | .word cs, [] => wordOf cs
  | .literal _, [] => []
  | .escape _, [] => []
  | .word cs, c :: rest =>
    if isWordChar c then lexemesFrom (.word (cs ++ [c])) rest
    else wordOf cs ++
      if c = '"' then lexemesFrom (.literal [c]) rest
      else if c = '/' ∧ rest.head? = some '/' then []
      else if Text.isBlank c then lexemesFrom (.word []) rest
      else .mark c :: lexemesFrom (.word []) rest
  | .literal cs, c :: rest =>
    if c = '\\' then lexemesFrom (.escape (cs ++ [c])) rest
    else if c = '"' then .literal (String.ofList (cs ++ [c])) :: lexemesFrom (.word []) rest
    else lexemesFrom (.literal (cs ++ [c])) rest
  | .escape cs, c :: rest => lexemesFrom (.literal (cs ++ [c])) rest

/-- The lexemes of a line. -/
def lexemes (line : String) : List Lexeme :=
  lexemesFrom (.word []) line.toList

/-! ### What stands between marks -/

/-- What stands behind each occurrence of an opening, up to a mark. -/
def occurrences (opening : List Lexeme) (close : Char) : List Lexeme → List (List Lexeme)
  | [] => []
  | first :: rest =>
    (if opening.isPrefixOf (first :: rest) then
      [((first :: rest).drop opening.length).takeWhile (· != .mark close)] else []) ++
      occurrences opening close rest

/-- What stands behind each occurrence of an opening in the lines of a text, up to a mark. -/
def between (opening : List Lexeme) (close : Char) (text : String) : List (List Lexeme) :=
  (Text.lines text).flatMap fun line => occurrences opening close (lexemes line)

/-- Nothing opens before the first lexeme of an opening. -/
theorem occurrences_skip {first : Lexeme} {before : List Lexeme} (free : first ∉ before)
    (more rest : List Lexeme) (close : Char) :
    occurrences (first :: more) close (before ++ rest) =
      occurrences (first :: more) close rest := by
  induction before with
  | nil => rfl
  | cons other before ih =>
    rw [List.mem_cons, not_or] at free
    rw [List.cons_append, occurrences, ih free.2, List.isPrefixOf_cons_cons,
      beq_false_of_ne free.1, Bool.false_and, if_neg Bool.false_ne_true, List.nil_append]

/-- Nothing opens where a lexeme of the opening is missing. -/
theorem occurrences_of_notMem {opening ls : List Lexeme} {l : Lexeme} (opens : l ∈ opening)
    (free : l ∉ ls) (close : Char) : occurrences opening close ls = [] := by
  induction ls with
  | nil => rfl
  | cons first rest ih =>
    have apart : ¬ opening.isPrefixOf (first :: rest) := fun begins =>
      free ((List.isPrefixOf_iff_prefix.mp begins).subset opens)
    rw [occurrences, if_neg apart, ih fun mem => free (List.mem_cons_of_mem _ mem)]
    rfl

/-- A mark is a character that is read. -/
theorem mem_of_mark_mem {c : Char} {state : LexemeState} {cs : List Char}
    (mem : .mark c ∈ lexemesFrom state cs) : c ∈ cs := by
  have noWord (cs : List Char) : Lexeme.mark c ∉ wordOf cs := by
    unfold wordOf
    split <;> simp
  induction cs generalizing state with
  | nil =>
    cases state with
    | word cs => exact absurd mem (noWord cs)
    | literal => cases mem
    | escape => cases mem
  | cons first rest ih =>
    have later {state : LexemeState} (mem : .mark c ∈ lexemesFrom state rest) :
        c ∈ first :: rest := List.mem_cons_of_mem _ (ih mem)
    cases state with
    | word cs =>
      rw [lexemesFrom] at mem
      split at mem
      · exact later mem
      · rcases List.mem_append.mp mem with word | mem
        · exact absurd word (noWord cs)
        · split at mem
          · exact later mem
          · split at mem
            · cases mem
            · split at mem
              · exact later mem
              · rcases List.mem_cons.mp mem with same | mem
                · cases same
                  exact List.mem_cons_self
                · exact later mem
    | literal cs =>
      rw [lexemesFrom] at mem
      split at mem
      · exact later mem
      · split at mem
        · rcases List.mem_cons.mp mem with same | mem
          · cases same
          · exact later mem
        · exact later mem
    | escape cs => exact later mem

section Between

variable {opening : List Lexeme} {close : Char}

theorem between_unlines (ls : List String) : between opening close (Text.unlines ls) =
    ls.flatMap fun line => between opening close (line ++ "\n") := by
  rw [between, Text.lines_unlines, List.flatMap_assoc]
  rfl

/-- A comment without a line feed holds nothing. -/
theorem between_comment {slashes text : String}
    (comment : ∀ more, lexemesFrom (.word []) (slashes.toList ++ more) = [])
    (ends : slashes.toList.getLast? ≠ some '\r') (whole : '\n' ∉ (slashes ++ text).toList) :
    between opening close (slashes ++ text ++ "\n") = [] := by
  have dropped : Text.dropReturn (slashes.toList ++ text.toList) =
      slashes.toList ++ Text.dropReturn text.toList := by
    cases last : text.toList.getLast? with
    | none => simp [List.getLast?_eq_none_iff.mp last, Text.dropReturn, ends]
    | some c =>
      have some : text.toList ≠ [] := by
        intro none
        simp [none] at last
      simp only [Text.dropReturn, List.getLast?_append, last, Option.some_or]
      split
      · exact List.dropLast_append_of_ne_nil some
      · rfl
  rw [between, Text.lines_feed, Text.pieces_of_notMem whole, List.map_singleton,
    List.flatMap_singleton, Function.comp_apply, String.toList_append, dropped, lexemes,
    String.toList_ofList, comment]
  rfl

/-- A text without a line feed that stands inside a comment adds nothing. -/
theorem between_commented {before text behind : String}
    (comment : ∀ more, lexemesFrom (.word []) (before.toList ++ more) = [])
    (ends : before.toList.getLast? ≠ some '\r') (around : '\n' ∉ (before ++ behind).toList)
    (whole : '\n' ∉ text.toList) :
    between opening close (before ++ text ++ behind ++ "\n") = [] := by
  have inside : before ++ text ++ behind = before ++ (text ++ behind) := String.append_assoc
  rw [inside]
  refine between_comment comment ends ?_
  simp only [String.toList_append, List.mem_append, not_or] at around ⊢
  exact ⟨around.1, whole, around.2⟩

/-- A line without a mark of the opening holds nothing. -/
theorem between_of_notMem {c : Char} {line : String} (opens : .mark c ∈ opening)
    (free : c ∉ line.toList) (whole : '\n' ∉ line.toList) :
    between opening close (line ++ "\n") = [] := by
  have kept : Lexeme.mark c ∉ lexemes (String.ofList (Text.dropReturn line.toList)) := by
    intro mem
    have mem := mem_of_mark_mem mem
    rw [String.toList_ofList, Text.dropReturn] at mem
    split at mem
    · exact free ((List.dropLast_subset _) mem)
    · exact free mem
  rw [between, Text.lines_feed, Text.pieces_of_notMem whole, List.map_singleton,
    List.flatMap_singleton]
  exact occurrences_of_notMem opens kept close

end Between

/-! ### Texts that end with a lexeme -/

/-- A text inside a line is cut into lexemes, whatever follows it. -/
structure Cuts (text : String) (ls : List Lexeme) : Prop where
  reads : ∀ rest, lexemesFrom (.word []) (text.toList ++ rest) =
    ls ++ lexemesFrom (.word []) rest
  whole : '\n' ∉ text.toList
  ends : text.toList.getLast? ≠ some '\r'

namespace Cuts

variable {a b text word : String} {ls ls' : List Lexeme}

/-- A text without line breaks is cut as it is read. -/
theorem of_reads (reads : ∀ rest, lexemesFrom (.word []) (text.toList ++ rest) =
      ls ++ lexemesFrom (.word []) rest)
    (unbroken : text.toList.all (fun c => c != '\n' && c != '\r') = true) : Cuts text ls where
  reads := reads
  whole feed := by cases List.all_eq_true.mp unbroken _ feed
  ends last := by cases List.all_eq_true.mp unbroken _ (List.mem_of_getLast? last)

theorem append (h : Cuts a ls) (h' : Cuts b ls') : Cuts (a ++ b) (ls ++ ls') where
  reads rest := by
    rw [String.toList_append, List.append_assoc, h.reads, h'.reads, List.append_assoc]
  whole := by simp [h.whole, h'.whole]
  ends := by
    rw [String.toList_append, List.getLast?_append]
    cases last : b.toList.getLast? with
    | none => simpa using h.ends
    | some c => simpa [last] using h'.ends

/-- A line that is cut holds what its lexemes do. -/
theorem between_eq (h : Cuts text ls) {opening : List Lexeme} {close : Char} :
    between opening close (text ++ "\n") = occurrences opening close ls := by
  have single : Text.lines (text ++ "\n") = [text] := by
    rw [Text.lines_feed, Text.pieces_of_notMem h.whole]
    simp [Text.dropReturn, h.ends]
  have cut : lexemes text = ls := by
    have reads := h.reads []
    rwa [List.append_nil, lexemesFrom, wordOf, if_pos rfl, List.append_nil] at reads
  rw [between, single, List.flatMap_singleton, cut]

end Cuts

theorem lexemesFrom_word {word : List Char} (letters : ∀ c ∈ word, isWordChar c = true)
    (before rest : List Char) : lexemesFrom (.word before) (word ++ rest) =
      lexemesFrom (.word (before ++ word)) rest := by
  induction word generalizing before with
  | nil => rw [List.nil_append, List.append_nil]
  | cons c others ih =>
    obtain ⟨first, letters⟩ := List.forall_mem_cons.mp letters
    rw [List.cons_append, lexemesFrom, if_pos first, ih letters, List.append_assoc]
    rfl

/-- A word ends before a text that does not go on with one. -/
theorem Cuts.word {word text : String} {ls : List Lexeme} (h : Cuts text ls)
    (filled : word ≠ "") (letters : ∀ c ∈ word.toList, isWordChar c = true)
    (next : text.toList.head?.any (!isWordChar ·) = true) :
    Cuts (word ++ text) (.word word :: ls) where
  reads rest := by
    have nonempty : word.toList ≠ [] := fun empty => filled (String.toList_eq_nil_iff.mp empty)
    have reads := h.reads rest
    cases letters' : text.toList with
    | nil => simp [letters'] at next
    | cons c others =>
      have other : isWordChar c = false := by simpa [letters'] using next
      rw [letters', List.cons_append, lexemesFrom, if_neg (by simp [other]), wordOf, if_pos rfl,
        List.nil_append] at reads
      rw [String.toList_append, List.append_assoc, lexemesFrom_word letters, letters',
        List.nil_append, List.cons_append, lexemesFrom, if_neg (by simp [other]), wordOf,
        if_neg nonempty, reads, String.ofList_toList]
      rfl
  whole := by
    rw [String.toList_append, List.mem_append, not_or]
    refine ⟨fun feed => ?_, h.whole⟩
    cases letters '\n' feed
  ends := by
    rw [String.toList_append, List.getLast?_append]
    cases last : text.toList.getLast? with
    | none => simp [List.getLast?_eq_none_iff.mp last] at next
    | some c => simpa [last] using h.ends

/-! ### Literals -/

/-- The digits of a code point are none of the characters that mean something in a literal. -/
theorem digit_apart {n : Nat} {c : Char} (mem : c ∈ Text.hexDigits n) :
    c ≠ '"' ∧ c ≠ '\\' ∧ c ≠ '\n' := by
  have known : ∀ digit < 16, digit.digitChar ≠ '"' ∧ digit.digitChar ≠ '\\' ∧
      digit.digitChar ≠ '\n' := by
    decide
  induction n using Nat.strongRecOn with
  | _ n ih =>
    rw [Text.hexDigits, Nat.toDigits_eq_if (by decide)] at mem
    split at mem
    · next small =>
      rw [List.mem_singleton.mp mem]
      exact known n small
    · next large =>
      rcases List.mem_append.mp mem with upper | last
      · exact ih (n / 16) (by omega) upper
      · rw [List.mem_singleton.mp last]
        exact known _ (Nat.mod_lt n (by decide))

/-- Characters that mean nothing in a literal are kept as they are. -/
theorem lexemesFrom_literal {cs : List Char} (plain : ∀ c ∈ cs, c ≠ '"' ∧ c ≠ '\\')
    (before rest : List Char) : lexemesFrom (.literal before) (cs ++ rest) =
      lexemesFrom (.literal (before ++ cs)) rest := by
  induction cs generalizing before with
  | nil => rw [List.nil_append, List.append_nil]
  | cons c others ih =>
    obtain ⟨⟨notQuote, notSlash⟩, plain⟩ := List.forall_mem_cons.mp plain
    rw [List.cons_append, lexemesFrom, if_neg notSlash, if_neg notQuote, ih plain,
      List.append_assoc]
    rfl

/-- What one character is written as stays inside the literal, and in its line. -/
theorem lexemesFrom_quoteChar (c : Char) (before rest : List Char) :
    lexemesFrom (.literal before) (Text.quoteChar c ++ rest) =
      lexemesFrom (.literal (before ++ Text.quoteChar c)) rest ∧ '\n' ∉ Text.quoteChar c := by
  by_cases special : c ∈ ['"', '\\', '\n', '\r', '\t', '\x00']
  · simp only [List.mem_cons, List.not_mem_nil, or_false] at special
    rcases special with rfl | rfl | rfl | rfl | rfl | rfl
    all_goals exact ⟨by simp [Text.quoteChar, lexemesFrom], by decide⟩
  · simp only [List.mem_cons, List.not_mem_nil, or_false, not_or] at special
    obtain ⟨notQuote, notSlash, notFeed, notReturn, notTab, notZero⟩ := special
    by_cases shown : (Text.isPrintable c && !Text.isExtending c) = true
    · have written : Text.quoteChar c = [c] := by
        simp [Text.quoteChar, notQuote, notSlash, notFeed, notReturn, notTab, notZero, shown]
      rw [written]
      exact ⟨lexemesFrom_literal (by simp [notQuote, notSlash]) before rest,
        by simpa using Ne.symm notFeed⟩
    · have written : Text.quoteChar c =
          ['\\', 'u', '\x7b'] ++ Text.hexDigits c.toNat ++ ['\x7d'] := by
        simp [Text.quoteChar, notQuote, notSlash, notFeed, notReturn, notTab, notZero, shown]
      have plain : ∀ d ∈ '\x7b' :: (Text.hexDigits c.toNat ++ ['\x7d']),
          d ≠ '"' ∧ d ≠ '\\' ∧ d ≠ '\n' := by
        simp only [List.forall_mem_cons, List.forall_mem_append, List.not_mem_nil,
          false_implies, implies_true, and_true]
        exact ⟨by decide, fun d mem => digit_apart mem, by decide⟩
      have split : Text.quoteChar c =
          ['\\', 'u'] ++ '\x7b' :: (Text.hexDigits c.toNat ++ ['\x7d']) := by
        rw [written]
        simp
      have escape : lexemesFrom (.literal before)
          (['\\', 'u'] ++ ('\x7b' :: (Text.hexDigits c.toNat ++ ['\x7d']) ++ rest)) =
            lexemesFrom (.literal (before ++ ['\\'] ++ ['u']))
              ('\x7b' :: (Text.hexDigits c.toNat ++ ['\x7d']) ++ rest) := by
        simp [lexemesFrom]
      rw [split]
      refine ⟨?_, fun feed => ?_⟩
      · rw [List.append_assoc, escape,
          lexemesFrom_literal fun d mem => ⟨(plain d mem).1, (plain d mem).2.1⟩]
        simp
      · rcases List.mem_append.mp feed with mark | digits
        · cases mark with
          | tail _ mark => cases mark with
            | tail _ mark => cases mark
        · exact (plain _ digits).2.2 rfl

/-- What is written for a text is one literal. -/
theorem cuts_quote (s : String) : Cuts (Text.quote s) [.literal (Text.quote s)] := by
  have kept (cs before rest : List Char) :
      lexemesFrom (.literal before) (cs.flatMap Text.quoteChar ++ rest) =
        lexemesFrom (.literal (before ++ cs.flatMap Text.quoteChar)) rest := by
    induction cs generalizing before with
    | nil => simp
    | cons c others ih =>
      rw [List.flatMap_cons, List.append_assoc, (lexemesFrom_quoteChar c before _).1, ih,
        List.append_assoc]
  have spelt : (Text.quote s).toList = '"' :: (s.toList.flatMap Text.quoteChar ++ ['"']) := by
    rw [Text.quote, String.toList_ofList]
    rfl
  constructor
  · intro rest
    have opened : lexemesFrom (.word [])
        ('"' :: (s.toList.flatMap Text.quoteChar ++ ['"']) ++ rest) =
          lexemesFrom (.literal ['"']) (s.toList.flatMap Text.quoteChar ++ ('"' :: rest)) := by
      rw [List.cons_append, List.append_assoc]
      rfl
    have closed (cs : List Char) : lexemesFrom (.literal cs) ('"' :: rest) =
        .literal (String.ofList (cs ++ ['"'])) :: lexemesFrom (.word []) rest :=
      rfl
    have whole : String.ofList (['"'] ++ s.toList.flatMap Text.quoteChar ++ ['"']) =
        Text.quote s := by
      rw [← String.toList_inj, spelt, String.toList_ofList]
      rfl
    rw [spelt, opened, kept, closed, whole]
    rfl
  · rw [spelt, List.mem_cons, List.mem_append, List.mem_flatMap]
    rintro (mark | ⟨c, -, feed⟩ | mark)
    · cases mark
    · exact (lexemesFrom_quoteChar c [] []).2 feed
    · simp at mark
  · rw [spelt, List.getLast?_cons, List.getLast?_append]
    simp

end ToolTree.Source
