/-!
Blank characters, and the cuts of a text made at them.

`isBlank` is the Unicode property White_Space, which has twenty-five members and is wider than
the four characters of `Char.isWhitespace`. Every cut works on the list of characters; the
functions on `String` are the same cuts on its characters.
-/

namespace ToolTree.Text

/-- The Unicode property White_Space. -/
def isBlank (c : Char) : Bool :=
  let n := c.toNat
  (9 ≤ n && n ≤ 13) || n == 0x20 || n == 0x85 || n == 0xa0 || n == 0x1680 ||
    (0x2000 ≤ n && n ≤ 0x200a) || n == 0x2028 || n == 0x2029 || n == 0x202f || n == 0x205f ||
    n == 0x3000

/-- Drops the characters at the end that satisfy `p`. -/
def dropEndWhile (p : Char → Bool) (cs : List Char) : List Char :=
  (cs.reverse.dropWhile p).reverse

/-- Drops the blanks at the end. -/
def trimEndChars (cs : List Char) : List Char :=
  dropEndWhile isBlank cs

/-- Drops the blanks at both ends. -/
def trimChars (cs : List Char) : List Char :=
  trimEndChars (cs.dropWhile isBlank)

/-- The text without the blanks at its end. -/
def trimEnd (s : String) : String :=
  String.ofList (trimEndChars s.toList)

/-- The text without the blanks at its two ends. -/
def trim (s : String) : String :=
  String.ofList (trimChars s.toList)

/-- Whether a text holds blanks only. -/
def isBlankText (s : String) : Bool :=
  s.toList.all isBlank

/-- Whether a text holds a blank. -/
def hasBlank (s : String) : Bool :=
  s.toList.any isBlank

/-! ### Where a list ends -/

/-- Unless all of a list have a property, there is a last that does not. -/
theorem exists_last_not {α : Type} (p : α → Prop) (as : List α) : (∀ a ∈ as, p a) ∨
    ∃ front last rest, as = front ++ last :: rest ∧ ¬ p last ∧ ∀ a ∈ rest, p a := by
  induction as with
  | nil => exact .inl (by simp)
  | cons a as ih =>
    rcases ih with all | ⟨front, last, rest, rfl, kept, all⟩
    · by_cases first : p a
      · exact .inl (List.forall_mem_cons.mpr ⟨first, all⟩)
      · exact .inr ⟨[], a, as, rfl, first, all⟩
    · exact .inr ⟨a :: front, last, rest, rfl, kept, all⟩

end ToolTree.Text
