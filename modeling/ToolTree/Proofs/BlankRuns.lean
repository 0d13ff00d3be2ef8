import Mathlib.Data.List.Chain
import Mathlib.Data.List.DropRight
import ToolTree.Proofs.SolidLines

/-!
What collapsing blank lines leaves of a text.

Up to blanks at the ends of lines, the lines of the collapsed text are those that are kept, without
the blank ones at the end (`trimmedLines_collapseBlankLines`). Of each run of blank lines the first
is kept, so no two stand together (`isChain_dropRepeatedBlanks`), and what stands between runs is
the same as before: the paragraphs of the text (`paragraphsOf_dropRepeatedBlanks`).
-/

namespace ToolTree.Text

/-- The lines of a text, each without the blanks at its end. -/
def trimmedLines (s : String) : List String :=
  (lines s).map trimEnd

/-- The runs of lines between blank ones. -/
def paragraphsOf (ls : List String) : List (List String) :=
  (ls.splitOnP isBlankText).filter fun run => !run.isEmpty

/-- The paragraphs of a text, each line without the blanks at its end. -/
def paragraphs (s : String) : List (List String) :=
  paragraphsOf (trimmedLines s)

/-! ### Trimmed lines -/

theorem toList_trimEnd (s : String) : (trimEnd s).toList = trimEndChars s.toList :=
  String.toList_ofList

@[simp] theorem trimEnd_trimEnd (s : String) : trimEnd (trimEnd s) = trimEnd s := by
  rw [← String.toList_inj, toList_trimEnd, toList_trimEnd]
  exact List.rdropWhile_idempotent isBlank _

/-- A text is blank when nothing of it is left. -/
theorem isBlankText_eq (s : String) : isBlankText s = decide (trimEnd s = "") := by
  rw [Bool.eq_iff_iff, decide_eq_true_iff, ← String.toList_inj, toList_trimEnd]
  exact trimEndChars_eq_nil_iff.symm

@[simp] theorem isBlankText_trimEnd (s : String) : isBlankText (trimEnd s) = isBlankText s := by
  rw [isBlankText_eq, isBlankText_eq, trimEnd_trimEnd]

theorem trimEnd_dropReturn (line : String) :
    trimEnd (String.ofList (dropReturn line.toList)) = trimEnd line := by
  rw [← String.toList_inj, toList_trimEnd, toList_trimEnd, String.toList_ofList,
    trimEndChars_dropReturn]

/-- Lines that are put together are read back, up to the blanks at their ends. -/
theorem trimmedLines_unlines {ls : List String} (whole : ∀ line ∈ ls, '\n' ∉ line.toList) :
    trimmedLines (unlines ls) = ls.map trimEnd := by
  rw [trimmedLines, lines_unlines, List.map_flatMap, List.map_eq_flatMap]
  refine List.flatMap_congr fun line mem => ?_
  rw [lines_feed, pieces_of_notMem (whole line mem), List.map_singleton, List.map_singleton,
    Function.comp_apply, trimEnd_dropReturn]

/-! ### Blank lines at the end -/

theorem trimEndChars_append_of_solid {cs : List Char} (solid : cs.all isBlank ≠ true)
    (before : List Char) : trimEndChars (before ++ cs) = before ++ trimEndChars cs := by
  obtain ⟨blanks, blank, split⟩ := exists_blanks cs
  have some : trimEndChars cs ≠ [] := fun none => solid (trimEndChars_eq_nil_iff.mp none)
  conv_lhs => rw [split, ← List.append_assoc, trimEndChars_append blank]
  rw [trimEndChars_eq_self_iff]
  intro c last
  rw [List.getLast?_append_of_ne_nil _ some] at last
  exact isBlank_of_getLast?_trimEndChars last

theorem isBlank_of_mem_unlines {ls : List String} (blank : ∀ line ∈ ls, isBlankText line = true) :
    ∀ c ∈ (unlines ls).toList, isBlank c = true := by
  induction ls with
  | nil => simp [unlines]
  | cons line rest ih =>
    obtain ⟨first, others⟩ := List.forall_mem_cons.mp blank
    intro c mem
    rw [unlines_cons, String.toList_append, String.toList_append, List.mem_append,
      List.mem_append] at mem
    rcases mem with (among | feed) | among
    · exact List.all_eq_true.mp first c among
    · rw [List.mem_singleton.mp feed]
      decide
    · exact ih others c among

/-- Blank lines at the end are trimmed, and the blanks at the end of the line before them. -/
theorem trimEnd_unlines {last : String} {blanks : List String} (solid : isBlankText last ≠ true)
    (blank : ∀ line ∈ blanks, isBlankText line = true) (front : List String) :
    trimEnd (unlines (front ++ last :: blanks)) = unlines front ++ trimEnd last := by
  have after : ∀ c ∈ '\n' :: (unlines blanks).toList, isBlank c = true :=
    List.forall_mem_cons.mpr ⟨by decide, isBlank_of_mem_unlines blank⟩
  have spelled : (unlines (front ++ last :: blanks)).toList =
      (unlines front).toList ++ (last.toList ++ '\n' :: (unlines blanks).toList) := by
    simp [unlines_append, unlines_cons]
  rw [← String.toList_inj, toList_trimEnd, spelled, ← List.append_assoc, trimEndChars_append after,
    trimEndChars_append_of_solid solid, String.toList_append, toList_trimEnd]

/-! ### Paragraphs -/

theorem paragraphsOf_cons_blank {line : String} (blank : isBlankText line = true)
    (rest : List String) : paragraphsOf (line :: rest) = paragraphsOf rest := by
  rw [paragraphsOf, List.splitOnP_cons_eq_if_modifyHead, if_pos blank]
  rfl

theorem paragraphsOf_append_blanks {blanks : List String}
    (blank : ∀ line ∈ blanks, isBlankText line = true) (ls : List String) :
    paragraphsOf (ls ++ blanks) = paragraphsOf ls := by
  induction blanks generalizing ls with
  | nil => rw [List.append_nil]
  | cons line rest ih =>
    obtain ⟨first, others⟩ := List.forall_mem_cons.mp blank
    have last : paragraphsOf (ls ++ [line]) = paragraphsOf ls := by
      rw [paragraphsOf, List.splitOnP_append_cons ls [] first, List.filter_append]
      exact List.append_nil _
    rw [← List.singleton_append, ← List.append_assoc, ih others, last]

end ToolTree.Text

namespace ToolTree.Docs

open Text (isBlankText lines paragraphs paragraphsOf trimEnd trimmedLines unlines)

/-! ### Lines that are kept -/

theorem dropRepeatedBlanks_sublist (blank : Bool) (ls : List String) :
    (dropRepeatedBlanks blank ls).Sublist ls := by
  induction ls generalizing blank with
  | nil => exact .refl []
  | cons line rest ih =>
    rw [dropRepeatedBlanks]
    split
    · split
      · exact (ih true).cons line
      · exact (ih true).cons_cons line
    · exact (ih false).cons_cons line

theorem map_dropRepeatedBlanks (blank : Bool) (ls : List String) :
    (dropRepeatedBlanks blank ls).map trimEnd = dropRepeatedBlanks blank (ls.map trimEnd) := by
  induction ls generalizing blank with
  | nil => rfl
  | cons line rest ih =>
    rw [List.map_cons, dropRepeatedBlanks, dropRepeatedBlanks, Text.isBlankText_trimEnd]
    split
    · split
      · exact ih true
      · rw [List.map_cons, ih]
    · rw [List.map_cons, ih]

/-- Of two lines one is not blank. -/
def Apart (line next : String) : Prop :=
  ¬ (isBlankText line = true ∧ isBlankText next = true)

/-- No two blank lines are kept side by side, and none is kept in front behind a blank one. -/
theorem isChain_dropRepeatedBlanks (blank : Bool) (ls : List String) :
    (dropRepeatedBlanks blank ls).IsChain Apart ∧
      (blank = true → ∀ line, (dropRepeatedBlanks blank ls).head? = some line →
        isBlankText line ≠ true) := by
  induction ls generalizing blank with
  | nil =>
    refine ⟨.nil, fun _ line first => ?_⟩
    cases first
  | cons line rest ih =>
    rw [dropRepeatedBlanks]
    split
    · obtain ⟨chain, front⟩ := ih true
      split
      · exact ⟨chain, fun _ => front rfl⟩
      · next fresh =>
        refine ⟨List.isChain_cons.mpr ⟨fun next first both => ?_, chain⟩, fun again => ?_⟩
        · exact front rfl next first both.2
        · exact absurd again fresh
    · next solid =>
      refine ⟨List.isChain_cons.mpr ⟨fun next _ both => solid both.1, (ih false).1⟩, ?_⟩
      intro _ other first
      cases first
      exact solid

/-- The run in front is kept, and so are those behind it but for empty ones. -/
theorem runs_dropRepeatedBlanks (ls : List String) :
    (∃ run others others', (dropRepeatedBlanks false ls).splitOnP isBlankText = run :: others ∧
      ls.splitOnP isBlankText = run :: others' ∧
      (others.filter fun run => !run.isEmpty) = others'.filter fun run => !run.isEmpty) ∧
      paragraphsOf (dropRepeatedBlanks true ls) = paragraphsOf ls := by
  induction ls with
  | nil => exact ⟨⟨[], [], [], List.splitOnP_nil, List.splitOnP_nil, rfl⟩, rfl⟩
  | cons line rest ih =>
    obtain ⟨⟨run, others, others', kept, all, same⟩, behind⟩ := ih
    by_cases blank : isBlankText line = true
    · rw [dropRepeatedBlanks, dropRepeatedBlanks, if_pos blank, if_pos blank, if_neg (by decide),
        if_pos rfl, List.splitOnP_cons_eq_if_modifyHead, List.splitOnP_cons_eq_if_modifyHead,
        if_pos blank, if_pos blank, Text.paragraphsOf_cons_blank blank]
      exact ⟨⟨[], _, _, rfl, rfl, behind⟩, behind⟩
    · rw [dropRepeatedBlanks, dropRepeatedBlanks, if_neg blank, if_neg blank, paragraphsOf,
        paragraphsOf, List.splitOnP_cons_eq_if_modifyHead, List.splitOnP_cons_eq_if_modifyHead,
        if_neg blank, if_neg blank, kept, all, List.modifyHead_cons, List.modifyHead_cons]
      refine ⟨⟨line :: run, others, others', rfl, rfl, same⟩, ?_⟩
      rw [List.filter_cons_of_pos rfl, List.filter_cons_of_pos rfl, same]

theorem paragraphsOf_dropRepeatedBlanks (ls : List String) :
    paragraphsOf (dropRepeatedBlanks false ls) = paragraphsOf ls := by
  obtain ⟨⟨run, others, others', kept, all, same⟩, -⟩ := runs_dropRepeatedBlanks ls
  rw [paragraphsOf, paragraphsOf, kept, all, List.filter_cons, List.filter_cons, same]

/-! ### The collapsed text -/

/-- Up to blanks at the ends of lines, the lines of the collapsed text are those that are kept,
without the blank ones at the end; where none is left there is one empty line. -/
theorem trimmedLines_collapseBlankLines (text : String) : ∃ kept blanks,
    dropRepeatedBlanks false (lines text) = kept ++ blanks ∧
      (∀ line ∈ blanks, isBlankText line = true) ∧
      (trimmedLines (collapseBlankLines text) = kept.map trimEnd ∨
        kept = [] ∧ trimmedLines (collapseBlankLines text) = [""]) := by
  have whole : ∀ line ∈ dropRepeatedBlanks false (lines text), '\n' ∉ line.toList := fun line mem =>
    Text.feed_notMem_of_mem_lines ((dropRepeatedBlanks_sublist false _).subset mem)
  rw [collapseBlankLines]
  rcases Text.exists_last_not (fun line => isBlankText line = true)
    (dropRepeatedBlanks false (lines text)) with blank | ⟨front, last, blanks, split, solid, blank⟩
  · refine ⟨[], _, rfl, blank, .inr ⟨rfl, ?_⟩⟩
    have none : trimEnd (unlines (dropRepeatedBlanks false (lines text))) = "" := by
      rw [trimEnd, Text.trimEndChars_eq_nil_iff.mpr
        (List.all_eq_true.mpr (Text.isBlank_of_mem_unlines blank))]
    rw [none]
    rfl
  · rw [split] at whole ⊢
    refine ⟨front ++ [last], blanks, by simp, blank, .inl ?_⟩
    have lastWhole : '\n' ∉ (trimEnd last).toList := by
      intro feed
      rw [Text.toList_trimEnd] at feed
      exact whole last (by simp) ((List.rdropWhile_prefix _ _).subset feed)
    have ended : trimEnd (unlines (front ++ last :: blanks)) ++ "\n" =
        unlines (front ++ [trimEnd last]) := by
      rw [Text.trimEnd_unlines solid blank, Text.unlines_append, Text.unlines_cons]
      simp [unlines, String.append_assoc]
    rw [ended, Text.trimmedLines_unlines, List.map_append, List.map_append, List.map_singleton,
      List.map_singleton, Text.trimEnd_trimEnd]
    intro line mem
    rcases List.mem_append.mp mem with among | mem
    · exact whole line (List.mem_append_left _ among)
    · rw [List.mem_singleton.mp mem]
      exact lastWhole

theorem isChain_collapseBlankLines (text : String) :
    (lines (collapseBlankLines text)).IsChain Apart := by
  have trimmed : (trimmedLines (collapseBlankLines text)).IsChain Apart := by
    obtain ⟨kept, blanks, split, -, same | ⟨-, same⟩⟩ := trimmedLines_collapseBlankLines text
    · have chain := (isChain_dropRepeatedBlanks false (lines text)).1
      rw [split] at chain
      rw [same, List.isChain_map]
      exact chain.left_of_append.imp fun line next apart => by simpa [Apart] using apart
    · rw [same]
      exact .singleton ""
  rw [trimmedLines, List.isChain_map] at trimmed
  exact trimmed.imp fun line next apart => by simpa [Apart] using apart

theorem paragraphs_collapseBlankLines (text : String) :
    paragraphs (collapseBlankLines text) = paragraphs text := by
  obtain ⟨kept, blanks, split, blank, same⟩ := trimmedLines_collapseBlankLines text
  have trimmed : ∀ line ∈ blanks.map trimEnd, isBlankText line = true := by
    simpa using blank
  have all : paragraphs text = paragraphsOf (kept.map trimEnd) := by
    rw [paragraphs, ← paragraphsOf_dropRepeatedBlanks, trimmedLines, ← map_dropRepeatedBlanks,
      split, List.map_append, Text.paragraphsOf_append_blanks trimmed]
  rw [all, paragraphs]
  rcases same with same | ⟨rfl, same⟩
  · rw [same]
  · rw [same]
    exact Text.paragraphsOf_cons_blank rfl []

/-- What is left of a text when its runs of blank lines are collapsed: no two blank lines stand side
by side, one line feed ends the text, with no blank before it, and all lines that are not blank are
there, those of one paragraph in one paragraph. Only of a blank text nothing is left but the line
feed. -/
structure Collapsed (text result : String) : Prop where
  chain : (lines result).IsChain Apart
  ending : ∃ body, result = body ++ "\n" ∧
    ∀ c, body.toList.getLast? = some c → Text.isBlank c = false
  lone : result = "\n" ↔ isBlankText text = true
  solid : Text.solidLines result = Text.solidLines text
  paragraphs : paragraphs result = paragraphs text

theorem collapsed_collapseBlankLines (text : String) :
    Collapsed text (collapseBlankLines text) where
  chain := isChain_collapseBlankLines text
  ending := by
    refine ⟨_, rfl, fun c last => ?_⟩
    rw [Text.toList_trimEnd] at last
    exact Text.isBlank_of_getLast?_trimEndChars last
  lone := by
    have kept := solidLines_collapseBlankLines text
    rw [collapseBlankLines, Text.solidLines_feed] at kept
    rw [← Text.solidLines_eq_nil_iff, ← kept, Text.solidLines_eq_nil_iff, Text.isBlankText_eq,
      Text.trimEnd_trimEnd, decide_eq_true_iff, collapseBlankLines]
    constructor
    · intro ended
      have spelled := congrArg String.toList ended
      rw [String.toList_append] at spelled
      exact String.toList_inj.mp (List.append_left_eq_self.mp spelled)
    · intro none
      rw [none]
      rfl
  solid := solidLines_collapseBlankLines text
  paragraphs := paragraphs_collapseBlankLines text

-- the blank line that is kept is the first of its run, with what it holds
example : collapseBlankLines "a \r\n \n\n\t\nb\n\n " = "a \n \nb\n" := by decide +kernel

end ToolTree.Docs
