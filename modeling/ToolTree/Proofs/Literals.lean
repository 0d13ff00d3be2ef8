import ToolTree.Text.Quoted

/-!
Quoted texts, read back.

`unquote` reads a literal the way source text is read: a backslash and a letter stand for one
character, and a code point in hexadecimal stands between braces. What `quote` writes is read as the
text that was quoted (`unquote_quote`), whatever characters it holds.
-/

namespace ToolTree.Text

/-! ### Reading a literal -/

/-- The value of a hexadecimal digit. -/
def hexValue? (c : Char) : Option Nat :=
  if '0' ≤ c ∧ c ≤ '9' then some (c.toNat - '0'.toNat)
  else if 'a' ≤ c ∧ c ≤ 'f' then some (c.toNat - 'a'.toNat + 10)
  else if 'A' ≤ c ∧ c ≤ 'F' then some (c.toNat - 'A'.toNat + 10)
  else none

/-- The character that a letter behind a backslash stands for. -/
def escaped? : Char → Option Char
  | '"' => some '"'
  | '\'' => some '\''
  | '\\' => some '\\'
  | 'n' => some '\n'
  | 'r' => some '\r'
  | 't' => some '\t'
  | '0' => some '\x00'
  | _ => none

/-- Where the reading of a literal stands: among its characters, behind a backslash, behind the `u`
of a code point, or among the digits of one, with the code so far. -/
inductive LiteralState where
  | text
  | escape
  | brace
  | digits (code : Nat)

/-- The characters that are spelt up to the closing quote, which is the last character. -/
def unquoteFrom : LiteralState → List Char → Option (List Char)
  | _, [] => none
  | .text, c :: rest =>
    if c = '"' then if rest = [] then some [] else none
    else if c = '\\' then unquoteFrom .escape rest
    else (unquoteFrom .text rest).map (c :: ·)
  | .escape, c :: rest =>
    if c = 'u' then unquoteFrom .brace rest
    else (escaped? c).bind fun c => (unquoteFrom .text rest).map (c :: ·)
  | .brace, c :: rest => if c = '\x7b' then unquoteFrom (.digits 0) rest else none
  | .digits code, c :: rest =>
    if c = '\x7d' then
      if code.isValidChar then (unquoteFrom .text rest).map (Char.ofNat code :: ·) else none
    else (hexValue? c).bind fun digit => unquoteFrom (.digits (16 * code + digit)) rest

/-- The text that a literal spells. -/
def unquote (literal : String) : Option String :=
  match literal.toList with
  | '"' :: rest => (unquoteFrom .text rest).map String.ofList
  | _ => none

/-! ### Reading back -/

theorem unquoteFrom_digit {digit : Nat} (small : digit < 16) (code : Nat) (rest : List Char) :
    unquoteFrom (.digits code) (digit.digitChar :: rest) =
      unquoteFrom (.digits (16 * code + digit)) rest := by
  have known : ∀ digit < 16, digit.digitChar ≠ '\x7d' ∧ hexValue? digit.digitChar = some digit := by
    decide
  obtain ⟨open', value⟩ := known digit small
  rw [unquoteFrom, if_neg open', value]
  rfl

/-- The digits of a number are read as the number. -/
theorem unquoteFrom_hexDigits (n : Nat) (rest : List Char) :
    unquoteFrom (.digits 0) (hexDigits n ++ rest) = unquoteFrom (.digits n) rest := by
  induction n using Nat.strongRecOn generalizing rest with
  | _ n ih =>
    rw [hexDigits, Nat.toDigits_eq_if (by decide)]
    split
    · next small =>
      rw [List.singleton_append, unquoteFrom_digit small, Nat.mul_zero, Nat.zero_add]
    · next large =>
      have less : n / 16 < n := by omega
      rw [List.append_assoc, ← hexDigits, ih _ less, List.singleton_append,
        unquoteFrom_digit (Nat.mod_lt n (by decide)), Nat.div_add_mod]

theorem unquoteFrom_braces (c : Char) (rest : List Char) :
    unquoteFrom .text (['\\', 'u', '\x7b'] ++ hexDigits c.toNat ++ ['\x7d'] ++ rest) =
      (unquoteFrom .text rest).map (c :: ·) := by
  have valid : c.toNat.isValidChar := c.valid
  have opened : unquoteFrom .text (['\\', 'u', '\x7b'] ++ (hexDigits c.toNat ++ '\x7d' :: rest)) =
      unquoteFrom (.digits 0) (hexDigits c.toNat ++ '\x7d' :: rest) := by
    simp [unquoteFrom]
  rw [List.append_assoc, List.append_assoc, List.singleton_append, opened, unquoteFrom_hexDigits,
    unquoteFrom, if_pos rfl, if_pos valid, Char.ofNat_toNat]

/-- What one character is written as is read as that character. -/
theorem unquoteFrom_quoteChar (c : Char) (rest : List Char) :
    unquoteFrom .text (quoteChar c ++ rest) = (unquoteFrom .text rest).map (c :: ·) := by
  by_cases special : c ∈ ['"', '\\', '\n', '\r', '\t', '\x00']
  · simp only [List.mem_cons, List.not_mem_nil, or_false] at special
    rcases special with rfl | rfl | rfl | rfl | rfl | rfl <;> rfl
  · simp only [List.mem_cons, List.not_mem_nil, or_false, not_or] at special
    obtain ⟨notQuote, notSlash, notFeed, notReturn, notTab, notZero⟩ := special
    by_cases shown : (isPrintable c && !isExtending c) = true
    · have written : quoteChar c = [c] := by
        simp [quoteChar, notQuote, notSlash, notFeed, notReturn, notTab, notZero, shown]
      rw [written, List.singleton_append, unquoteFrom, if_neg notQuote, if_neg notSlash]
    · have written : quoteChar c = ['\\', 'u', '\x7b'] ++ hexDigits c.toNat ++ ['\x7d'] := by
        simp [quoteChar, notQuote, notSlash, notFeed, notReturn, notTab, notZero, shown]
      rw [written, unquoteFrom_braces]

theorem unquote_quote (s : String) : unquote (quote s) = some s := by
  have read (cs : List Char) : unquoteFrom .text (cs.flatMap quoteChar ++ ['"']) = some cs := by
    induction cs with
    | nil => rfl
    | cons c rest ih =>
      rw [List.flatMap_cons, List.append_assoc, unquoteFrom_quoteChar, ih]
      rfl
  rw [unquote, quote, String.toList_ofList, quoteChars]
  simp [read]

end ToolTree.Text
