import ToolTree.Docs.Markdown
import ToolTree.Proofs.SolidLines
import ToolTree.Proofs.WellFormed

/-!
Rows of the table of flags.

A bar that no backslash stands right before ends a cell; `openBars` counts these. Where a text does
not begin with a bar, or what stands before it does not end with a backslash, the open bars of both
add up, so a row has those that the table sets and those of the texts in it. Default and usage texts
are escaped and add none, and neither does a known type; but the name and the shorthand stand in the
row as they are (`rows_of_accepted`). A shorthand that is a bar makes a sixth cell (`row_of_sieve`).
-/

namespace ToolTree.Docs

/-! ### Open bars -/

/-- The number of bars that no backslash stands right before, behind the character `previous`. -/
def openBarsFrom (previous : Char) : List Char → Nat
  | [] => 0
  | c :: rest => (if c = '|' ∧ previous ≠ '\\' then 1 else 0) + openBarsFrom c rest

/-- The number of bars in a line that no backslash stands right before. -/
def openBars (s : String) : Nat :=
  openBarsFrom '\n' s.toList

theorem openBarsFrom_append (previous : Char) (a b : List Char) :
    openBarsFrom previous (a ++ b) =
      openBarsFrom previous a + openBarsFrom (a.getLastD previous) b := by
  induction a generalizing previous with
  | nil => simp [openBarsFrom]
  | cons c rest ih =>
    rw [List.cons_append, openBarsFrom, openBarsFrom, ih, List.getLastD_cons, Nat.add_assoc]

/-- What stands before a text matters only if it is a backslash and the text begins with a bar. -/
theorem openBarsFrom_congr {previous previous' : Char} {cs : List Char}
    (apart : previous ≠ '\\' ∧ previous' ≠ '\\' ∨ cs.head? ≠ some '|') :
    openBarsFrom previous cs = openBarsFrom previous' cs := by
  cases cs with
  | nil => rfl
  | cons c rest =>
    rcases apart with ⟨ne, ne'⟩ | other
    · simp [openBarsFrom, ne, ne']
    · have noBar : c ≠ '|' := by simpa using other
      simp [openBarsFrom, noBar]

theorem openBars_append {a b : String}
    (apart : a.toList.getLast? ≠ some '\\' ∨ b.toList.head? ≠ some '|') :
    openBars (a ++ b) = openBars a + openBars b := by
  rw [openBars, String.toList_append, openBarsFrom_append, openBars, openBars]
  congr 1
  refine openBarsFrom_congr (apart.imp_left fun ends => ⟨?_, by decide⟩)
  rw [List.getLastD_eq_getLast?]
  cases last : a.toList.getLast? with
  | none => simp
  | some c =>
    rw [last] at ends
    simpa using ends

/-- A text between two others that does not begin with a bar or end with a backslash. -/
theorem openBars_between (a b : String) {fence : String} {c : Char}
    (starts : fence.toList.head? ≠ some '|') (ends : fence.toList.getLast? = some c)
    (open_ : c ≠ '\\') :
    openBars (a ++ fence ++ b) = openBars a + openBars fence + openBars b := by
  have last : (a ++ fence).toList.getLast? ≠ some '\\' := by
    rw [Text.getLast?_append ends]
    simpa using open_
  rw [openBars_append (.inl last), openBars_append (.inr starts)]

/-! ### Texts in a row -/

/-- An escaped text has no open bar, whatever stands before it. -/
theorem openBarsFrom_cell (text : String) (previous : Char) :
    openBarsFrom previous (cell text).toList = 0 := by
  rw [cell, String.toList_ofList]
  induction text.toList generalizing previous with
  | nil => rfl
  | cons c rest ih =>
    rw [List.flatMap_cons, openBarsFrom_append, ih, Nat.add_zero]
    split
    · simp [openBarsFrom]
    · next noBar =>
      split
      · simp [openBarsFrom]
      · simp [openBarsFrom, noBar]

theorem openBars_cell (text : String) : openBars (cell text) = 0 :=
  openBarsFrom_cell text '\n'

/-- An escaped text stays in its line. -/
theorem feed_notMem_cell (text : String) : '\n' ∉ (cell text).toList := by
  rw [cell, String.toList_ofList, List.mem_flatMap]
  rintro ⟨c, -, mem⟩
  split at mem
  · simp at mem
  · split at mem
    · simp at mem
    · next other =>
      exact other (List.mem_singleton.mp mem).symm

/-- The cell of the shorthand. -/
def shorthandCell (flag : FlagDecl) : String :=
  if flag.shorthand = "" then "" else "`-" ++ flag.shorthand ++ "`"

/-- The cell of the default text. -/
def defaultCell (flag : FlagDecl) : String :=
  if flag.defaultText = "" then "" else "`" ++ cell flag.defaultText ++ "`"

/-- The mark of a required flag. -/
def requiredMark (flag : FlagDecl) : String :=
  if flag.required then " **(required)**" else ""

/-- The row of a flag without the line feed at its end. -/
def rowLine (flag : FlagDecl) : String :=
  "| `--" ++ flag.name ++ "` | " ++ shorthandCell flag ++ " | " ++ flag.kind ++ " | " ++
    defaultCell flag ++ " | " ++ (cell flag.usage ++ requiredMark flag ++ " |")

theorem flagRow_eq (flag : FlagDecl) : flagRow flag = rowLine flag ++ "\n" := by
  have ends (a b : String) : a ++ (b ++ " |") ++ "\n" = a ++ (b ++ " |\n") := by
    rw [String.append_assoc, String.append_assoc]
    rfl
  exact (ends _ _).symm

/-! ### Counting -/

theorem openBars_shorthandCell (flag : FlagDecl) :
    openBars (shorthandCell flag) = openBars flag.shorthand := by
  unfold shorthandCell
  split
  · next empty => rw [empty]
  · rw [openBars_append (.inr (by simp)), openBars_append (.inl (by simp))]
    simp [openBars, openBarsFrom]

theorem openBars_defaultCell (flag : FlagDecl) : openBars (defaultCell flag) = 0 := by
  unfold defaultCell
  split
  · rfl
  · rw [openBars_append (.inr (by simp)), openBars_append (.inl (by simp)), openBars_cell]
    rfl

theorem openBars_requiredMark (flag : FlagDecl) : openBars (requiredMark flag) = 0 := by
  unfold requiredMark
  split <;> rfl

theorem openBars_spelling (kind : FlagKind) : openBars kind.spelling = 0 := by
  cases kind <;> rfl

/-- The open bars of a row are six, and those of the name and the shorthand. -/
theorem openBars_rowLine {flag : FlagDecl} {kind : FlagKind} (typed : flag.kind = kind.spelling) :
    openBars (rowLine flag) = 6 + openBars flag.name + openBars flag.shorthand := by
  have first (b : String) : openBars ("| `--" ++ b) = 1 + openBars b :=
    openBars_append (.inl (by decide))
  have second (a b : String) : openBars (a ++ "` | " ++ b) = openBars a + 1 + openBars b :=
    openBars_between a b (by decide) rfl (by decide)
  have next (a b : String) : openBars (a ++ " | " ++ b) = openBars a + 1 + openBars b :=
    openBars_between a b (by decide) rfl (by decide)
  have last : openBars (cell flag.usage ++ requiredMark flag ++ " |") = 1 := by
    have mark : (requiredMark flag).toList.head? ≠ some '|' := by
      unfold requiredMark
      split <;> decide
    rw [openBars_append (.inr (by decide)), openBars_append (.inr mark), openBars_cell,
      openBars_requiredMark]
    rfl
  unfold rowLine
  rw [next, next, next, second, first, last, typed, openBars_spelling,
    openBars_shorthandCell, openBars_defaultCell]
  omega

/-- A row holds the line feeds of the name and of the shorthand only. -/
theorem feed_notMem_rowLine {flag : FlagDecl} {kind : FlagKind}
    (typed : flag.kind = kind.spelling) :
    '\n' ∉ (rowLine flag).toList ↔ '\n' ∉ flag.name.toList ∧ '\n' ∉ flag.shorthand.toList := by
  have kindFree : '\n' ∉ flag.kind.toList := by
    rw [typed]
    cases kind <;> decide
  have shorthand : '\n' ∈ (shorthandCell flag).toList ↔ '\n' ∈ flag.shorthand.toList := by
    unfold shorthandCell
    split
    · next empty => rw [empty]
    · simp
  have default : '\n' ∉ (defaultCell flag).toList := by
    unfold defaultCell
    split
    · simp
    · simp [feed_notMem_cell]
  have mark : '\n' ∉ (requiredMark flag).toList := by
    unfold requiredMark
    split <;> decide
  unfold rowLine
  simp [shorthand, kindFree, default, mark, feed_notMem_cell]

theorem getLast?_rowLine (flag : FlagDecl) : (rowLine flag).toList.getLast? = some '|' :=
  Text.getLast?_append (Text.getLast?_append rfl)

/-! ### Short texts -/

section Short

variable {s : String} (short : s.length ≤ 1)
include short

/-- A text of at most one character is empty or that character. -/
theorem toList_of_short : s.toList = [] ∨ ∃ c, s.toList = [c] := by
  rw [← String.length_toList] at short
  cases letters : s.toList with
  | nil => exact .inl rfl
  | cons c rest =>
    rw [letters, List.length_cons] at short
    have none : rest = [] := List.eq_nil_of_length_eq_zero (by omega)
    exact .inr ⟨c, by rw [none]⟩

theorem openBars_of_short : openBars s = if s = "|" then 1 else 0 := by
  have bar : s = "|" ↔ s.toList = ['|'] := String.toList_inj.symm
  simp only [bar, openBars]
  rcases toList_of_short short with letters | ⟨c, letters⟩ <;> simp [letters, openBarsFrom]

theorem feed_notMem_of_short : '\n' ∉ s.toList ↔ s ≠ "\n" := by
  have feed : s = "\n" ↔ s.toList = ['\n'] := String.toList_inj.symm
  rw [ne_eq, feed]
  rcases toList_of_short short with letters | ⟨c, letters⟩ <;> simp [letters, eq_comm]

end Short

/-! ### The table -/

/-- The lines of the table: the titles, the rule below them, and the rows. -/
theorem flagTable_eq (flags : List FlagDecl) :
    flagTable flags = Text.unlines (
      "| Flag | Shorthand | Type | Default | Description |" ::
      "|------|-----------|------|---------|-------------|" :: flags.map rowLine) := by
  have rows : flags.map flagRow = (flags.map rowLine).map (· ++ "\n") := by
    rw [List.map_map]
    exact List.map_congr_left fun flag _ => flagRow_eq flag
  have titles : "| Flag | Shorthand | Type | Default | Description |" ++ "\n" =
      "| Flag | Shorthand | Type | Default | Description |\n" := rfl
  have rule : "|------|-----------|------|---------|-------------|" ++ "\n" =
      "|------|-----------|------|---------|-------------|\n" := rfl
  unfold flagTable
  rw [Text.unlines_cons, Text.unlines_cons, titles, rule, Text.unlines, ← rows,
    ← String.append_assoc]

/-- Rows of accepted flags. A row is one line exactly if no line feed stands in the name or is the
shorthand. It has six open bars, one more for each in the name and one more for a shorthand that is
a bar. So the table has a line for the titles, one for the rule below, and one for each flag, of
five cells each, if bars and line feeds are kept out of names and shorthands, whatever the default
and usage texts hold. -/
theorem rows_of_accepted {path : String} {flags : List FlagDecl}
    (accepted : flagProblems path flags = []) :
    (∀ flag ∈ flags,
      ((∃ line, flagRow flag = line ++ "\n" ∧ '\n' ∉ line.toList) ↔
        '\n' ∉ flag.name.toList ∧ flag.shorthand ≠ "\n") ∧
      openBars (flagRow flag) =
        6 + openBars flag.name + if flag.shorthand = "|" then 1 else 0) ∧
    ((∀ flag ∈ flags, openBars flag.name = 0 ∧ '\n' ∉ flag.name.toList ∧
        flag.shorthand ≠ "|" ∧ flag.shorthand ≠ "\n") →
      (Text.lines (flagTable flags)).length = 2 + flags.length ∧
        ∀ line ∈ Text.lines (flagTable flags), openBars line = 6) := by
  have wellFormed := flagProblems_eq_nil_iff.mp accepted
  have oneLine : ∀ flag ∈ flags, '\n' ∉ (rowLine flag).toList ↔
      '\n' ∉ flag.name.toList ∧ flag.shorthand ≠ "\n" := by
    intro flag mem
    obtain ⟨kind, typed⟩ := (wellFormed flag mem).typed
    rw [feed_notMem_rowLine typed, feed_notMem_of_short (wellFormed flag mem).short]
  have bars : ∀ flag ∈ flags, openBars (rowLine flag) =
      6 + openBars flag.name + if flag.shorthand = "|" then 1 else 0 := by
    intro flag mem
    obtain ⟨kind, typed⟩ := (wellFormed flag mem).typed
    rw [openBars_rowLine typed, openBars_of_short (wellFormed flag mem).short]
  refine ⟨fun flag mem => ⟨?_, ?_⟩, fun plain => ?_⟩
  · rw [← oneLine flag mem, flagRow_eq]
    constructor
    · rintro ⟨line, same, free⟩
      rwa [(String.append_left_inj _).mp same]
    · exact fun free => ⟨_, rfl, free⟩
  · rw [flagRow_eq, openBars_append (.inr (by decide)), bars flag mem]
    rfl
  · have rows : ∀ flag ∈ flags, '\n' ∉ (rowLine flag).toList ∧ openBars (rowLine flag) = 6 := by
      intro flag mem
      obtain ⟨noBar, noFeed, shortBar, shortFeed⟩ := plain flag mem
      exact ⟨(oneLine flag mem).mpr ⟨noFeed, shortFeed⟩, by simp [bars flag mem, noBar, shortBar]⟩
    rw [flagTable_eq, Text.lines_unlines_of_whole]
    · refine ⟨by simp [Nat.add_comm 2], ?_⟩
      simp only [List.forall_mem_cons, List.forall_mem_map]
      exact ⟨rfl, rfl, fun flag mem => (rows flag mem).2⟩
    · simp only [List.forall_mem_cons, List.forall_mem_map]
      exact ⟨by decide, by decide, fun flag mem =>
        ⟨(rows flag mem).1, by simp [getLast?_rowLine]⟩⟩

/-- A flag with bars and a line feed in its default and usage texts. -/
def sieveFlag (shorthand : String) : FlagDecl where
  name := "cut"
  shorthand
  kind := "string"
  defaultText := "|"
  usage := "Cut at \\|\nor at this"
  required := true

/-- The table of a flag with a letter as shorthand has three lines of five cells. -/
theorem rows_of_accepted_sieve :
    flagProblems "sieve" [sieveFlag "c"] = [] ∧
    (∀ flag ∈ [sieveFlag "c"], openBars flag.name = 0 ∧ '\n' ∉ flag.name.toList ∧
      flag.shorthand ≠ "|" ∧ flag.shorthand ≠ "\n") ∧
    (Text.lines (flagTable [sieveFlag "c"])).length = 3 ∧
      ∀ line ∈ Text.lines (flagTable [sieveFlag "c"]), openBars line = 6 := by
  have accepted : flagProblems "sieve" [sieveFlag "c"] = [] := by decide
  have plain : ∀ flag ∈ [sieveFlag "c"], openBars flag.name = 0 ∧ '\n' ∉ flag.name.toList ∧
      flag.shorthand ≠ "|" ∧ flag.shorthand ≠ "\n" := by decide
  exact ⟨accepted, plain, (rows_of_accepted accepted).2 plain⟩

/-- With a bar as shorthand, which is accepted too, the row has six cells. -/
theorem row_of_sieve :
    flagProblems "sieve" [sieveFlag "|"] = [] ∧ reuseProblems "sieve" [] [] [sieveFlag "|"] = [] ∧
      flagRow (sieveFlag "|") =
        "| `--cut` | `-|` | string | `\\|` | Cut at \\\\| or at this **(required)** |\n" ∧
      openBars (flagRow (sieveFlag "|")) = 7 := by
  decide

end ToolTree.Docs
