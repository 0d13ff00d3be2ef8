import Mathlib.Data.List.Basic
import ToolTree.Text.Quoted
import ToolTree.Yaml.Lexer

/-!
Scalars within a line: what is written as one is read back.

Between double quotes the writer and the reader agree on the characters that stand for themselves
and on the escapes with one letter. A code point between braces is no escape of YAML, so a text
with a character that is written as one (`isBraceless` fails on it) is not read at all, and no
other text is refused. A plain scalar is read back whenever it begins with a letter or a digit
and holds no mark that could end it.
-/

namespace ToolTree

namespace Text

/-! ### Characters between quotes -/

/-- Whether a character is quoted without its code point: as itself, or with a letter of its
own. -/
def isBraceless (c : Char) : Bool :=
  c == '\n' || c == '\r' || c == '\t' || c == '\x00' || (isPrintable c && !isExtending c)

theorem inRuns_of_lt : ∀ n < 0xa1, 0x7f ≤ n → inRuns n unprintableRuns = true := by
  decide +kernel

theorem toNat_of_isPrintable {c : Char} (printable : isPrintable c = true) :
    0x20 ≤ c.toNat ∧ (c.toNat < 0x7f ∨ 0xa0 < c.toNat) ∧ c.toNat ≠ 0x2028 ∧ c.toNat ≠ 0x2029 ∧
      c.toNat ≠ 0xfffe ∧ c.toNat ≠ 0xffff := by
  unfold isPrintable at printable
  split at printable
  case isTrue low =>
    have := of_decide_eq_true printable
    omega
  case isFalse high =>
    have outside : inRuns c.toNat unprintableRuns = false := by simpa using printable
    have apart (n : Nat) (inside : inRuns n unprintableRuns = true) : c.toNat ≠ n := by
      rintro rfl
      simp [outside] at inside
    refine ⟨by omega, .inr ?_, apart _ (by decide +kernel), apart _ (by decide +kernel),
      apart _ (by decide +kernel), apart _ (by decide +kernel)⟩
    by_contra low
    exact apart c.toNat (inRuns_of_lt _ (by omega) (by omega)) rfl

theorem toNat_of_isAlphanum {c : Char} (h : c.isAlphanum = true) :
    (0x61 ≤ c.toNat ∧ c.toNat ≤ 0x7a) ∨ (0x41 ≤ c.toNat ∧ c.toNat ≤ 0x5a) ∨
      (0x30 ≤ c.toNat ∧ c.toNat ≤ 0x39) := by
  unfold Char.isAlphanum Char.isAlpha Char.isUpper Char.isLower Char.isDigit at h
  simp only [Bool.or_eq_true, Bool.and_eq_true, decide_eq_true_eq, UInt32.le_iff_toNat_le] at h
  change ((0x41 ≤ c.toNat ∧ c.toNat ≤ 0x5a) ∨ (0x61 ≤ c.toNat ∧ c.toNat ≤ 0x7a)) ∨
    (0x30 ≤ c.toNat ∧ c.toNat ≤ 0x39) at h
  omega

theorem isPrintable_of_isAlphanum {c : Char} (h : c.isAlphanum = true) : isPrintable c = true := by
  have := toNat_of_isAlphanum h
  have low : 0x20 ≤ c.toNat := by omega
  have high : c.toNat < 0x7f := by omega
  simp [isPrintable, low, high]

theorem isBraceless_of_isAlphanum {c : Char} (h : c.isAlphanum = true) : isBraceless c = true := by
  have := toNat_of_isAlphanum h
  have low : c.toNat < 0x300 := by omega
  simp [isBraceless, isExtending, isPrintable_of_isAlphanum h, low]

/-- How a character may stand between double quotes without braces. -/
inductive Quotation (c : Char) : List Char → Prop where
  | itself (printable : isPrintable c = true) (notQuote : c ≠ '"') (notSlash : c ≠ '\\') :
      Quotation c [c]
  | letter {e : Char} (escape : Yaml.escapeChar? e = some c) (printable : isPrintable e = true) :
      Quotation c ['\\', e]

theorem quotation_of_isBraceless {c : Char} (braceless : isBraceless c = true) :
    Quotation c (quoteChar c) := by
  by_cases special : c ∈ ['"', '\\', '\n', '\r', '\t', '\x00']
  · simp only [List.mem_cons, List.not_mem_nil, or_false] at special
    rcases special with rfl | rfl | rfl | rfl | rfl | rfl <;> exact .letter rfl (by decide)
  · simp only [List.mem_cons, List.not_mem_nil, or_false, not_or] at special
    obtain ⟨notQuote, notSlash, notFeed, notReturn, notTab, notZero⟩ := special
    have shown : isPrintable c = true ∧ isExtending c = false := by
      simpa [isBraceless, notFeed, notReturn, notTab, notZero] using braceless
    have written : quoteChar c = [c] := by
      simp [quoteChar, notQuote, notSlash, notFeed, notReturn, notTab, notZero, shown]
    rw [written]
    exact .itself shown.1 notQuote notSlash

theorem quoteChar_of_braces {c : Char} (braces : isBraceless c = false) :
    ∃ digits, quoteChar c = '\\' :: 'u' :: '\x7b' :: digits := by
  have known (d : Char) (braceless : isBraceless d = true) : c ≠ d := by
    rintro rfl
    simp [braceless] at braces
  have notQuote := known '"' (by decide +kernel)
  have notSlash := known '\\' (by decide +kernel)
  have notFeed := known '\n' rfl
  have notReturn := known '\r' rfl
  have notTab := known '\t' rfl
  have notZero := known '\x00' rfl
  have hidden : (isPrintable c && !isExtending c) = false := by
    simpa only [isBraceless, beq_eq_false_iff_ne.mpr notFeed, beq_eq_false_iff_ne.mpr notReturn,
      beq_eq_false_iff_ne.mpr notTab, beq_eq_false_iff_ne.mpr notZero, Bool.false_or] using braces
  exact ⟨hexDigits c.toNat ++ ['\x7d'], by
    simp [quoteChar, notQuote, notSlash, notFeed, notReturn, notTab, notZero, hidden]⟩

end Text

namespace Yaml

open Text

/-! ### Places -/

theorem isAllowed_of_isPrintable {c : Char} (printable : isPrintable c = true) :
    isAllowed c = true := by
  have bounds := toNat_of_isPrintable printable
  have valid := c.valid
  have code : c.val.toNat = c.toNat := rfl
  simp only [UInt32.isValidChar, Nat.isValidChar, code] at valid
  simp only [isAllowed, Bool.or_eq_true, Bool.and_eq_true, beq_iff_eq, decide_eq_true_eq]
  omega

theorem isGap_eq_false_iff {c : Char} :
    isGap c = false ↔ isSpace c = false ∧ isBreak c = false := by
  simp [isGap]

theorem isBreak_of_isPrintable {c : Char} (printable : isPrintable c = true) :
    isBreak c = false := by
  have bounds := toNat_of_isPrintable printable
  simp only [isBreak, Bool.or_eq_false_iff, beq_eq_false_iff_ne]
  refine ⟨⟨⟨⟨?_, ?_⟩, ?_⟩, ?_⟩, ?_⟩ <;> rintro rfl <;> revert bounds <;> decide

theorem isGap_of_isPrintable {c : Char} (printable : isPrintable c = true) (shown : c ≠ ' ') :
    isGap c = false := by
  have bounds := toNat_of_isPrintable printable
  have notTab : c ≠ '\t' := by
    rintro rfl
    revert bounds
    decide
  simp [isGap, isSpace, isBreak_of_isPrintable printable, shown, notTab]

theorem ne_of_isAlphanum {c d : Char} (alphanum : c.isAlphanum = true)
    (other : d.isAlphanum = false) : c ≠ d := by
  rintro rfl
  rw [other] at alphanum
  cases alphanum

theorem isBreak_of_isAlphanum {c : Char} (alphanum : c.isAlphanum = true) : isBreak c = false :=
  isBreak_of_isPrintable (isPrintable_of_isAlphanum alphanum)

theorem isGap_of_isAlphanum {c : Char} (alphanum : c.isAlphanum = true) : isGap c = false :=
  isGap_of_isPrintable (isPrintable_of_isAlphanum alphanum) (ne_of_isAlphanum alphanum rfl)

/-- The octets of characters. -/
def width : List Char → Nat
  | [] => 0
  | c :: cs => c.utf8Size + width cs

/-- Where a text stands when its first character is passed. -/
theorem place_cons (k o : Nat) (c : Char) (cs : List Char) :
    k + (c :: cs).length = k + 1 + cs.length ∧ o + width (c :: cs) = o + c.utf8Size + width cs := by
  simp [width, Nat.add_assoc, Nat.add_comm 1]

theorem locateFrom_cons {c : Char} (inLine : isBreak c = false) (l k o : Nat) (rest : List Char) :
    locateFrom l k o (c :: rest) =
      ⟨c, l, k, o⟩ :: locateFrom l (k + 1) (o + c.utf8Size) rest := by
  simp [locateFrom, inLine]

theorem atDocumentMark_of_column {c : Located} (inside : c.column ≠ 0) (rest : Input) :
    atDocumentMark (c :: rest) = false := by
  unfold atDocumentMark
  split
  case h_1 same =>
    cases same
    simp [inside]
  case h_2 => rfl

theorem atDocumentMark_of_char {c : Located} (notDash : c.char ≠ '-') (notDot : c.char ≠ '.')
    (rest : Input) : atDocumentMark (c :: rest) = false := by
  unfold atDocumentMark
  split
  case h_1 same =>
    cases same
    simp [notDash, notDot]
  case h_2 => rfl

/-! ### Gaps within a line -/

/-- A gap of so many spaces. -/
def spaces (n : Nat) : Gap where
  chars := List.replicate n ' '

@[simp] theorem push_spaces (n : Nat) : (spaces n).push ' ' = spaces (n + 1) :=
  rfl

@[simp] theorem fold_spaces (n : Nat) : (spaces n).fold = List.replicate n ' ' := by
  have noBreak : (List.replicate n ' ').filter isBreak = [] := by
    simp [isBreak]
  simp [Gap.fold, spaces, noBreak]

@[simp] theorem isBroken_spaces (n : Nat) : (spaces n).isBroken = false := by
  simp [Gap.isBroken, spaces, List.any_replicate, isBreak]

@[simp] theorem isEmpty_spaces (n : Nat) : (spaces n).chars.isEmpty = (n == 0) := by
  cases n <;> rfl

theorem spaces_zero : spaces 0 = {} :=
  rfl

theorem map_prepend_nil (read : Option TextAndRest) : read.map (prepend []) = read := by
  cases read <;> rfl

theorem prepend_prepend (cs ds : List Char) (t : TextAndRest) :
    prepend cs (prepend ds t) = prepend (cs ++ ds) t := by
  simp [prepend]

/-! ### Between double quotes -/

section DoubleQuoted

variable {k : Nat} (inside : k ≠ 0) (gap : Gap) (l o : Nat) (rest : Input)

theorem doubleQuoted_space : doubleQuoted gap (⟨' ', l, k, o⟩ :: rest) =
    doubleQuoted (gap.push ' ') rest := by
  rw [doubleQuoted.eq_def]
  simp [isGap, isSpace]

include inside

theorem doubleQuoted_close :
    doubleQuoted gap (⟨'"', l, k, o⟩ :: rest) = some (gap.fold, rest) := by
  rw [doubleQuoted.eq_def]
  simp [isGap, isSpace, isBreak, atDocumentMark_of_column, inside]

theorem doubleQuoted_itself {c : Char} (printable : isPrintable c = true) (notSpace : c ≠ ' ')
    (notQuote : c ≠ '"') (notSlash : c ≠ '\\') :
    doubleQuoted gap (⟨c, l, k, o⟩ :: rest) =
      (doubleQuoted {} rest).map (prepend (gap.fold ++ [c])) := by
  rw [doubleQuoted.eq_def]
  simp [isGap_of_isPrintable printable notSpace, atDocumentMark_of_column, inside, notQuote,
    notSlash]

theorem doubleQuoted_letter {c : Char} {e : Located} (escape : escapeChar? e.char = some c)
    (inLine : isBreak e.char = false) :
    doubleQuoted gap (⟨'\\', l, k, o⟩ :: e :: rest) =
      (doubleQuoted {} rest).map (prepend (gap.fold ++ [c])) := by
  have notGap : isGap '\\' = false := rfl
  rw [doubleQuoted.eq_def]
  simp [notGap, atDocumentMark_of_column, inside, inLine, escape]

/-- A code point between braces is no escape. -/
theorem doubleQuoted_codePoint {u brace : Located} (isCode : u.char = 'u')
    (isBrace : brace.char = '\x7b') :
    doubleQuoted gap (⟨'\\', l, k, o⟩ :: u :: brace :: rest) = none := by
  have notGap : isGap '\\' = false := rfl
  have inLine : isBreak 'u' = false := rfl
  have noDigit : Text.hexValue '\x7b' = none := rfl
  have code : escapedCode 4 0 (brace :: rest) = none := by
    rw [escapedCode.eq_def]
    simp [isBrace, noDigit]
  rw [doubleQuoted.eq_def]
  simp [notGap, atDocumentMark_of_column, inside, isCode, inLine, escapeChar?, escapeWidth?, code]

end DoubleQuoted

theorem doubleQuoted_quotation {c : Char} {w : List Char} (written : Quotation c w)
    (shown : c ≠ ' ') {k : Nat} (inside : k ≠ 0) (gap : Gap) (l o : Nat) (rest : List Char) :
    ∃ k' o', k' ≠ 0 ∧ doubleQuoted gap (locateFrom l k o (w ++ rest)) =
      (doubleQuoted {} (locateFrom l k' o' rest)).map (prepend (gap.fold ++ [c])) := by
  cases written with
  | itself printable notQuote notSlash =>
    refine ⟨k + 1, o + c.utf8Size, Nat.succ_ne_zero k, ?_⟩
    rw [List.singleton_append, locateFrom_cons (isBreak_of_isPrintable printable),
      doubleQuoted_itself inside gap l o _ printable shown notQuote notSlash]
  | @letter e escape printable =>
    refine ⟨k + 2, o + '\\'.utf8Size + e.utf8Size, Nat.succ_ne_zero (k + 1), ?_⟩
    have inLine := isBreak_of_isPrintable printable
    rw [List.cons_append, List.singleton_append, locateFrom_cons rfl, locateFrom_cons inLine,
      doubleQuoted_letter inside gap l o _ escape inLine]

/-- What was quoted without braces is read, up to the spaces at its end, which wait for what
follows. -/
theorem doubleQuoted_flatMap {cs : List Char} (braceless : ∀ c ∈ cs, isBraceless c = true)
    (n l o : Nat) {k : Nat} (inside : k ≠ 0) (rest : List Char) :
    ∃ ds m k' o', k' ≠ 0 ∧ ds ++ List.replicate m ' ' = List.replicate n ' ' ++ cs ∧
      doubleQuoted (spaces n) (locateFrom l k o (cs.flatMap quoteChar ++ rest)) =
        (doubleQuoted (spaces m) (locateFrom l k' o' rest)).map (prepend ds) := by
  induction cs generalizing n k o with
  | nil =>
    refine ⟨[], n, k, o, inside, by simp, ?_⟩
    rw [List.flatMap_nil, List.nil_append, map_prepend_nil]
  | cons c cs ih =>
    obtain ⟨first, behind⟩ := List.forall_mem_cons.mp braceless
    rw [List.flatMap_cons, List.append_assoc]
    by_cases space : c = ' '
    · subst space
      obtain ⟨ds, m, k', o', inside', whole, read⟩ :=
        ih behind (n + 1) (o + ' '.utf8Size) (Nat.succ_ne_zero k)
      refine ⟨ds, m, k', o', inside', ?_, ?_⟩
      · rw [whole, List.replicate_succ', List.append_assoc, List.singleton_append]
      · have written : quoteChar ' ' = [' '] := by decide +kernel
        rw [written, List.singleton_append, locateFrom_cons rfl, doubleQuoted_space, push_spaces,
          read]
    · obtain ⟨k₁, o₁, inside₁, here⟩ := doubleQuoted_quotation
        (quotation_of_isBraceless first) space inside (spaces n) l o
        (cs.flatMap quoteChar ++ rest)
      obtain ⟨ds, m, k', o', inside', whole, read⟩ := ih behind 0 o₁ inside₁
      refine ⟨List.replicate n ' ' ++ [c] ++ ds, m, k', o', inside', ?_, ?_⟩
      · rw [List.append_assoc, whole]
        simp
      · rw [here, ← spaces_zero, read, fold_spaces, Option.map_map]
        congr 1
        funext t
        exact prepend_prepend _ _ t

/-- The reader gives back what was quoted. -/
theorem doubleQuoted_quoted {cs : List Char} (braceless : ∀ c ∈ cs, isBraceless c = true)
    (l o : Nat) {k : Nat} (inside : k ≠ 0) (rest : List Char) :
    ∃ k' o', doubleQuoted {} (locateFrom l k o (cs.flatMap quoteChar ++ '"' :: rest)) =
      some (cs, locateFrom l k' o' rest) := by
  obtain ⟨ds, m, k', o', inside', whole, read⟩ :=
    doubleQuoted_flatMap braceless 0 l o inside ('"' :: rest)
  refine ⟨k' + 1, o' + '"'.utf8Size, ?_⟩
  rw [← spaces_zero, read, locateFrom_cons rfl, doubleQuoted_close inside', Option.map_some,
    fold_spaces, prepend, whole]
  simp

/-- The reader refuses a text in which a code point was written between braces. -/
theorem doubleQuoted_braces {cs : List Char} (braceless : ∀ c ∈ cs, isBraceless c = true)
    (l o : Nat) {k : Nat} (inside : k ≠ 0) (rest : List Char) :
    doubleQuoted {}
      (locateFrom l k o (cs.flatMap quoteChar ++ '\\' :: 'u' :: '\x7b' :: rest)) = none := by
  obtain ⟨ds, m, k', o', inside', -, read⟩ :=
    doubleQuoted_flatMap braceless 0 l o inside ('\\' :: 'u' :: '\x7b' :: rest)
  rw [← spaces_zero, read, locateFrom_cons rfl, locateFrom_cons rfl, locateFrom_cons rfl,
    doubleQuoted_codePoint inside' _ l o' _ rfl rfl, Option.map_none]

/-! ### Plain text -/

/-- Whether a character neither ends a plain scalar nor stands in a gap of one. -/
def isPlain (c : Char) : Bool :=
  isPrintable c && !List.contains [' ', '#', ':', ',', '[', ']', '\x7b', '\x7d'] c

/-- Whether a text may stand as a plain scalar: it begins with a letter or a digit, ends with no
space, and holds spaces and plain characters. -/
def isPlainText (cs : List Char) : Bool :=
  cs.head?.any Char.isAlphanum && cs.all (fun c => c == ' ' || isPlain c) &&
    cs.getLast? != some ' '

theorem isPrintable_of_isPlain {c : Char} (plain : isPlain c = true) : isPrintable c = true := by
  simp only [isPlain, Bool.and_eq_true] at plain
  exact plain.1

theorem isBreak_of_isPlain {c : Char} (plain : isPlain c = true) : isBreak c = false :=
  isBreak_of_isPrintable (isPrintable_of_isPlain plain)

theorem isPlain_of_isAlphanum {c : Char} (alphanum : c.isAlphanum = true) : isPlain c = true := by
  have noMark : List.contains [' ', '#', ':', ',', '[', ']', '\x7b', '\x7d'] c = false := by
    simp only [List.contains_eq_mem, decide_eq_false_iff_not]
    intro mem
    have none : [' ', '#', ':', ',', '[', ']', '\x7b', '\x7d'].any Char.isAlphanum = false := rfl
    exact List.any_eq_false.mp none c mem alphanum
  rw [isPlain, isPrintable_of_isAlphanum alphanum, noMark]
  rfl

section Plain

variable (flow : Bool) {indent : Int} (n l o : Nat) {k : Nat} (rest : Input)

theorem plainScalar_space :
    plainScalar flow indent (spaces n) (⟨' ', l, k, o⟩ :: rest) =
      plainScalar flow indent (spaces (n + 1)) rest := by
  rw [plainScalar]
  simp [isSpace]

theorem plainScalar_isPlain {c : Char} (plain : isPlain c = true)
    (inside : n = 0 ∨ (k ≠ 0 ∧ indent ≤ k)) :
    plainScalar flow indent (spaces n) (⟨c, l, k, o⟩ :: rest) =
      (plainScalar flow indent {} rest).map (·.prepend (List.replicate n ' ' ++ [c])) := by
  obtain ⟨printable, notMark⟩ : isPrintable c = true ∧
      ¬ [' ', '#', ':', ',', '[', ']', '\x7b', '\x7d'].contains c = true := by
    simpa [isPlain] using plain
  simp only [List.contains_eq_mem, List.mem_cons, List.not_mem_nil, or_false, decide_eq_true_eq,
    not_or] at notMark
  obtain ⟨notSpace, notHash, notColon, notComma, notOpen, notClose, notBrace, notEnd⟩ := notMark
  obtain ⟨noSpace, noBreak⟩ := isGap_eq_false_iff.mp (isGap_of_isPrintable printable notSpace)
  have goesOn : n ≠ 0 → plainStops flow indent ⟨c, l, k, o⟩ rest = false := by
    intro some
    obtain ⟨notFirst, far⟩ := inside.resolve_left some
    have right : ¬ (k : Int) < indent := by omega
    simp [plainStops, atDocumentMark_of_column, notFirst, right, notHash]
  have goesOnHere : plainRefused flow c rest = false ∧ plainEnds flow c rest = false := by
    simp [plainRefused, plainEnds, notColon, notComma, notOpen, notClose, notBrace, notEnd]
  rw [plainScalar]
  by_cases none : n = 0
  · simp [noSpace, noBreak, goesOnHere, none]
  · simp [noSpace, noBreak, goesOnHere, goesOn none]

end Plain

/-- The reader of plain scalars goes through a plain text and on behind it. The text may begin at
the column of the block around it, but then not behind a space. -/
theorem plainScalar_text (flow : Bool) {indent : Int} {cs : List Char} (nonempty : cs ≠ [])
    (plain : ∀ c ∈ cs, c = ' ' ∨ isPlain c = true) (ends : cs.getLast? ≠ some ' ')
    (n l o : Nat) {k : Nat} (start : n = 0 ∨ (k ≠ 0 ∧ indent ≤ k)) (far : indent ≤ k + 1)
    (rest : List Char) :
    plainScalar flow indent (spaces n) (locateFrom l k o (cs ++ rest)) =
      (plainScalar flow indent {} (locateFrom l (k + cs.length) (o + width cs) rest)).map
        (·.prepend (List.replicate n ' ' ++ cs)) := by
  induction cs generalizing n k o with
  | nil => exact absurd rfl nonempty
  | cons c cs ih =>
    obtain ⟨first, plainBehind⟩ := List.forall_mem_cons.mp plain
    have inside : k + 1 ≠ 0 := Nat.succ_ne_zero k
    have farBehind : indent ≤ (k + 1 : Nat) + 1 := by omega
    rw [(place_cons k o c cs).1, (place_cons k o c cs).2]
    by_cases last : cs = []
    · subst last
      have notSpace : c ≠ ' ' := by simpa using ends
      have here := first.resolve_left notSpace
      rw [List.singleton_append, locateFrom_cons (isBreak_of_isPlain here),
        plainScalar_isPlain flow n l o _ here start]
      simp [width]
    · have endsBehind : cs.getLast? ≠ some ' ' := by
        rwa [List.getLast?_cons_of_ne_nil last] at ends
      rcases first with rfl | here
      · rw [List.cons_append, locateFrom_cons rfl, plainScalar_space,
          ih last plainBehind endsBehind (n + 1) _ (.inr ⟨inside, by omega⟩) farBehind,
          List.replicate_succ', List.append_assoc, List.singleton_append]
      · rw [List.cons_append, locateFrom_cons (isBreak_of_isPlain here),
          plainScalar_isPlain flow n l o _ here start, ← spaces_zero,
          ih last plainBehind endsBehind 0 _ (.inl rfl) farBehind, Option.map_map]
        congr 1
        funext scalar
        simp [PlainScalar.prepend]

theorem exists_of_isPlainText {cs : List Char} (text : isPlainText cs = true) :
    ∃ c rest, cs = c :: rest ∧ c.isAlphanum = true ∧ (∀ d ∈ cs, d = ' ' ∨ isPlain d = true) ∧
      cs.getLast? ≠ some ' ' := by
  cases cs with
  | nil => simp [isPlainText] at text
  | cons c rest =>
    simp only [isPlainText, Bool.and_eq_true, List.all_eq_true, Bool.or_eq_true, beq_iff_eq,
      bne_iff_ne, List.head?_cons, Option.any_some] at text
    exact ⟨c, rest, rfl, text.1.1, text.1.2, text.2⟩

/-- A plain text is read as it is written, up to what follows it. -/
theorem plainScalar_isPlainText (flow : Bool) {indent : Int} {cs : List Char}
    (text : isPlainText cs = true) (l o : Nat) {k : Nat} (far : indent ≤ k + 1)
    (rest : List Char) :
    plainScalar flow indent {} (locateFrom l k o (cs ++ rest)) =
      (plainScalar flow indent {} (locateFrom l (k + cs.length) (o + width cs) rest)).map
        (·.prepend cs) := by
  obtain ⟨c, more, rfl, -, plain, ends⟩ := exists_of_isPlainText text
  exact plainScalar_text flow (List.cons_ne_nil c more) plain ends 0 l o (.inl rfl) far rest

end Yaml

end ToolTree
