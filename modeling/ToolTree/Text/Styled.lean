/-!
Styled text, as a terminal shows it.

A style is turned on and off by control sequences, which `ToolTree.Text.visible` drops again.
They matter to the plain text all the same: a sequence that free text leaves open ends where the
next style begins or ends, and what stands up to there is lost.
-/

namespace ToolTree.Text

/-- A text with a style turned on before it and turned off behind it. -/
def styled (style text : String) : String :=
  style ++ text ++ "\x1b[0m"

/-- Bold text, for what is typed as it stands. -/
def literal (text : String) : String :=
  styled "\x1b[1m" text

/-- Bold and underlined text, for headings. -/
def heading (text : String) : String :=
  styled "\x1b[1m\x1b[4m" text

/-- Bold red text, for the word that announces an error. -/
def alarm (text : String) : String :=
  styled "\x1b[1m\x1b[31m" text

end ToolTree.Text
