import ToolTree.Text.Extending

/-!
Quoted text: how a text is shown between double quotes so that every character can be told
apart.

A double quote and a backslash get a backslash; line feed, carriage return, tab and NUL have a
letter of their own; a character that is not printable, or that would combine with the one
before it, is written as its code point in hexadecimal between braces. Everything else,
the apostrophe included, stands for itself.
-/

namespace ToolTree.Text

/-- The lower-case hexadecimal digits of a number, without leading zeros. -/
def hexDigits (n : Nat) : List Char :=
  Nat.toDigits 16 n

/-- How one character is written inside a quoted text. -/
def quoteChar (c : Char) : List Char :=
  if c == '"' then ['\\', '"']
  else if c == '\\' then ['\\', '\\']
  else if c == '\n' then ['\\', 'n']
  else if c == '\r' then ['\\', 'r']
  else if c == '\t' then ['\\', 't']
  else if c == '\x00' then ['\\', '0']
  else if isPrintable c && !isExtending c then [c]
  else ['\\', 'u', '\x7b'] ++ hexDigits c.toNat ++ ['\x7d']

/-- The characters of a quoted text. -/
def quoteChars (cs : List Char) : List Char :=
  '"' :: cs.flatMap quoteChar ++ ['"']

/-- A text between double quotes. -/
def quote (s : String) : String :=
  String.ofList (quoteChars s.toList)

/-- A list of texts, each quoted, between brackets. -/
def quoteList (ss : List String) : String :=
  "[" ++ String.intercalate ", " (ss.map quote) ++ "]"

end ToolTree.Text
