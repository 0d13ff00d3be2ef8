import ToolTree.Text.Blank

/-!
Use lines: the name of a command, then a hint at its arguments that is only displayed.

The name is the first word; the hint is what follows it, trimmed. Cutting loses nothing but
blanks.
-/

namespace ToolTree.UseLine

/-- The first word of a use line, empty when the line is blank. -/
def name (line : String) : String :=
  String.ofList ((line.toList.dropWhile Text.isBlank).takeWhile fun c => !Text.isBlank c)

/-- What follows the first word, without blanks at its ends. -/
def hint (line : String) : String :=
  String.ofList <| Text.trimChars <|
    (line.toList.dropWhile Text.isBlank).dropWhile fun c => !Text.isBlank c

theorem name_not_blank (line : String) : ∀ c ∈ (name line).toList, Text.isBlank c = false := by
  intro c hc
  rw [name, String.toList_ofList] at hc
  have := List.all_eq_true.mp List.all_takeWhile c hc
  simpa using this

end ToolTree.UseLine
