import Mathlib.Data.List.TakeWhile
import ToolTree.Decl.UseLine
import ToolTree.Proofs.SolidLines

/-!
How a use line falls into a name and a hint.

That a line `Splits` into two texts says what is kept of it: all but the blanks at its ends, with
nothing but blanks between the two. A line splits in one way only (`Splits.unique`), and does so
into its name and its hint (`splits_name_hint`). So the two functions agree on where the name ends,
though each looks for that place by itself, and a line that is put together from them splits as
before (`Splits.again`).
-/

namespace ToolTree.Text

/-- The words of a text, which blanks divide. -/
def words (s : String) : List String :=
  ((pieces isBlank s.toList).filter fun piece => !piece.isEmpty).map String.ofList

/-- No blank stands at either end of a text. -/
structure Trimmed (s : String) : Prop where
  start : ∀ c, s.toList.head? = some c → isBlank c = false
  ending : ∀ c, s.toList.getLast? = some c → isBlank c = false

/-! ### Blanks at the ends -/

theorem dropWhile_eq_self {cs : List Char} {p : Char → Bool}
    (start : ∀ c, cs.head? = some c → p c = false) : cs.dropWhile p = cs := by
  cases cs with
  | nil => rfl
  | cons c rest => exact List.dropWhile_cons_of_neg (by simp [start c rfl])

theorem head?_dropWhile {cs : List Char} {p : Char → Bool} {c : Char}
    (first : (cs.dropWhile p).head? = some c) : p c = false := by
  have stops := List.head?_dropWhile_not p cs
  rw [first] at stops
  simpa using stops

theorem trimmed_trim (s : String) : Trimmed (trim s) := by
  constructor
  · intro c first
    rw [trim, String.toList_ofList] at first
    have front : trimChars s.toList <+: s.toList.dropWhile isBlank :=
      List.rdropWhile_prefix isBlank _
    obtain ⟨blanks, whole⟩ := front
    have met : (s.toList.dropWhile isBlank).head? = some c := by
      rw [← whole, List.head?_append, first]
      rfl
    exact head?_dropWhile met
  · intro c last
    rw [trim, String.toList_ofList, trimChars] at last
    exact isBlank_of_getLast?_trimEndChars last

theorem Trimmed.trim_eq {s : String} (h : Trimmed s) : trim s = s := by
  rw [trim, trimChars, dropWhile_eq_self h.start, trimEndChars_eq_self_iff.mpr h.ending,
    String.ofList_toList]

/-- The text without the blanks at its ends, and what was there. -/
theorem exists_trimChars (cs : List Char) : ∃ front back,
    (∀ c ∈ front, isBlank c = true) ∧ (∀ c ∈ back, isBlank c = true) ∧
      cs = front ++ (trimChars cs ++ back) := by
  obtain ⟨back, blank, split⟩ := exists_blanks (cs.dropWhile isBlank)
  refine ⟨cs.takeWhile isBlank, back, fun c mem => List.mem_takeWhile_imp mem, blank, ?_⟩
  rw [trimChars, ← split, List.takeWhile_append_dropWhile]

/-- Whatever stands between two texts that are not empty. -/
theorem Trimmed.append {a b : String} (h : Trimmed a) (h' : Trimmed b) (filled : a ≠ "")
    (filled' : b ≠ "") (between : String) : Trimmed (a ++ between ++ b) := by
  have some (s : String) (filled : s ≠ "") : s.toList ≠ [] :=
    fun none => filled (String.toList_inj.mp none)
  constructor
  · intro c first
    rw [String.toList_append, String.toList_append, List.append_assoc,
      List.head?_append_of_ne_nil _ (some a filled)] at first
    exact h.start c first
  · intro c last
    rw [String.toList_append, List.getLast?_append_of_ne_nil _ (some b filled')] at last
    exact h'.ending c last

/-- Blanks behind a text are trimmed. -/
theorem Trimmed.trim_append {a b : String} (h : Trimmed a) (blank : isBlankText b = true) :
    trim (a ++ b) = a := by
  have blank := List.all_eq_true.mp blank
  rw [trim, trimChars, String.toList_append]
  cases spelled : a.toList with
  | nil =>
    rw [List.nil_append, List.dropWhile_eq_nil_iff.mpr blank]
    exact (String.toList_inj.mp spelled).symm
  | cons c rest =>
    have start : isBlank c = false := h.start c (by rw [spelled]; rfl)
    rw [List.cons_append, List.dropWhile_cons_of_neg (by simp [start]), ← List.cons_append,
      ← spelled, trimEndChars_append blank, trimEndChars_eq_self_iff.mpr h.ending,
      String.ofList_toList]

theorem trimmed_of_forall {s : String} (whole : ∀ c ∈ s.toList, isBlank c = false) : Trimmed s where
  start c first := whole c (List.mem_of_head? first)
  ending c last := whole c (List.mem_of_getLast? last)

/-! ### The first word -/

theorem head?_pieces (p : Char → Bool) (cs : List Char) :
    (pieces p cs).head? = some (cs.takeWhile fun c => !p c) := by
  induction cs with
  | nil => rfl
  | cons c rest ih =>
    rw [pieces]
    by_cases cut : p c = true
    · rw [if_pos cut, List.takeWhile_cons_of_neg (by simp [cut])]
      rfl
    · rw [if_neg cut, List.takeWhile_cons_of_pos (by simp [cut])]
      cases more : pieces p rest with
      | nil => exact absurd more (pieces_ne_nil p rest)
      | cons first others =>
        rw [more, List.head?_cons, Option.some.injEq] at ih
        rw [← ih]
        rfl

/-- The first piece that is not empty starts where the cuts at the front end. -/
theorem head?_filter_pieces (p : Char → Bool) (cs : List Char) :
    (((pieces p cs).filter fun piece => !piece.isEmpty).head?).getD [] =
      (cs.dropWhile p).takeWhile fun c => !p c := by
  induction cs with
  | nil => rfl
  | cons c rest ih =>
    by_cases cut : p c = true
    · rw [pieces, if_pos cut, List.dropWhile_cons_of_pos cut]
      exact ih
    · have first := head?_pieces p (c :: rest)
      rw [List.takeWhile_cons_of_pos (by simp [cut])] at first
      obtain ⟨others, all⟩ := List.head?_eq_some_iff.mp first
      rw [all, List.dropWhile_cons_of_neg cut, List.takeWhile_cons_of_pos (by simp [cut])]
      rfl

end ToolTree.Text

namespace ToolTree.UseLine

open Text (Trimmed isBlank isBlankText trim words)

/-- A line falls into a name without blanks, empty where the line is blank, and a hint with no
blank at its ends. Without the blanks at its own ends it is the name, or the name, blanks and the
hint. -/
structure Splits (line name hint : String) : Prop where
  whole : ∀ c ∈ name.toList, isBlank c = false
  unnamed : name = "" ↔ isBlankText line = true
  trimmed : Trimmed hint
  alone : hint = "" → trim line = name
  joined : hint ≠ "" → ∃ blanks, blanks ≠ "" ∧ isBlankText blanks = true ∧
    trim line = name ++ blanks ++ hint

namespace Splits

variable {line name name' hint hint' : String}

theorem hint_eq_empty (h : Splits line name hint) (unnamed : name = "") : hint = "" := by
  by_contra some
  obtain ⟨blanks, -, -, joined⟩ := h.joined some
  have blank : trim line = "" := by
    have front := List.dropWhile_eq_nil_iff.mpr (List.all_eq_true.mp (h.unnamed.mp unnamed))
    rw [trim, Text.trimChars, front]
    rfl
  rw [blank] at joined
  have none := congrArg String.toList joined
  simp only [String.toList_append, String.toList_empty] at none
  exact some (String.toList_inj.mp (List.append_eq_nil_iff.mp none.symm).2)

/-- What stands between the name and the hint, which is nothing when there is no hint. -/
theorem spelled (h : Splits line name hint) : ∃ blanks : List Char,
    (∀ c ∈ blanks, isBlank c = true) ∧ (blanks = [] → hint = "") ∧
      (trim line).toList = name.toList ++ (blanks ++ hint.toList) := by
  by_cases plain : hint = ""
  · refine ⟨[], by simp, fun _ => plain, ?_⟩
    rw [h.alone plain, plain, String.toList_empty, List.nil_append, List.append_nil]
  · obtain ⟨blanks, some, blank, joined⟩ := h.joined plain
    refine ⟨blanks.toList, List.all_eq_true.mp blank, fun none => ?_, ?_⟩
    · exact absurd (String.toList_inj.mp none) some
    · rw [joined, String.toList_append, String.toList_append, List.append_assoc]

/-- A line splits in one way only: the name goes to the first blank, and the hint starts behind the
blanks that follow. -/
theorem parts (h : Splits line name hint) :
    name.toList = (trim line).toList.takeWhile (fun c => !isBlank c) ∧
      hint.toList = ((trim line).toList.dropWhile fun c => !isBlank c).dropWhile isBlank := by
  obtain ⟨blanks, blank, between, spelled⟩ := h.spelled
  have whole : ∀ c ∈ name.toList, (!isBlank c) = true := fun c mem => by simp [h.whole c mem]
  have stops : (blanks ++ hint.toList).dropWhile (fun c => !isBlank c) = blanks ++ hint.toList := by
    apply Text.dropWhile_eq_self
    intro c first
    cases blanks with
    | nil =>
      rw [between rfl] at first
      cases first
    | cons b rest =>
      cases first
      simp [blank c List.mem_cons_self]
  have taken : (blanks ++ hint.toList).takeWhile (fun c => !isBlank c) = [] := by
    have both := List.takeWhile_append_dropWhile (p := fun c => !isBlank c)
      (l := blanks ++ hint.toList)
    rw [stops] at both
    exact List.append_left_eq_self.mp both
  rw [spelled, List.takeWhile_append_of_pos whole, List.dropWhile_append_of_pos whole, stops, taken,
    List.dropWhile_append_of_pos blank, Text.dropWhile_eq_self h.trimmed.start, List.append_nil]
  exact ⟨rfl, rfl⟩

theorem unique (h : Splits line name hint) (h' : Splits line name' hint') :
    name = name' ∧ hint = hint' := by
  constructor
  · exact String.toList_inj.mp (h.parts.1.trans h'.parts.1.symm)
  · exact String.toList_inj.mp (h.parts.2.trans h'.parts.2.symm)

/-- The name and the hint with one space between them split as before. -/
theorem again (h : Splits line name hint) : Splits (name ++ " " ++ hint) name hint where
  whole := h.whole
  unnamed := by
    constructor
    · intro unnamed
      rw [unnamed, h.hint_eq_empty unnamed]
      decide
    · intro blank
      have all : ∀ c ∈ name.toList, isBlank c = true := fun c mem =>
        List.all_eq_true.mp blank c (by simp [mem])
      refine String.toList_inj.mp (List.eq_nil_iff_forall_not_mem.mpr fun c mem => ?_)
      have clash := all c mem
      rw [h.whole c mem] at clash
      cases clash
  trimmed := h.trimmed
  alone := by
    intro plain
    rw [plain, String.append_empty]
    exact (Text.trimmed_of_forall h.whole).trim_append (by decide)
  joined := by
    intro some
    have named : name ≠ "" := fun unnamed => some (h.hint_eq_empty unnamed)
    refine ⟨" ", by decide, by decide, ?_⟩
    exact ((Text.trimmed_of_forall h.whole).append h.trimmed named some " ").trim_eq

end Splits

theorem trimmed_hint (line : String) : Trimmed (hint line) := by
  have trimmed := Text.trimmed_trim
    (String.ofList ((line.toList.dropWhile isBlank).dropWhile fun c => !isBlank c))
  rwa [trim, String.toList_ofList] at trimmed

/-- What a line holds behind the blanks at its front: its name, blanks, its hint, and blanks, of
which the first are there only if the hint is not empty. -/
theorem exists_spelling (line : String) : ∃ between back : List Char,
    (∀ c ∈ between, isBlank c = true) ∧ (∀ c ∈ back, isBlank c = true) ∧
      (between = [] → hint line = "") ∧ line.toList.dropWhile isBlank =
        (name line).toList ++ (between ++ ((hint line).toList ++ back)) := by
  set cs := line.toList.dropWhile isBlank with behind
  obtain ⟨between, back, blank, blank', split⟩ :=
    Text.exists_trimChars (cs.dropWhile fun c => !isBlank c)
  have named : (name line).toList = cs.takeWhile fun c => !isBlank c := String.toList_ofList
  have hinted : (hint line).toList = Text.trimChars (cs.dropWhile fun c => !isBlank c) :=
    String.toList_ofList
  refine ⟨between, back, blank, blank', fun none => ?_, ?_⟩
  · cases spelled : (hint line).toList with
    | nil => exact String.toList_inj.mp spelled
    | cons c rest =>
      have solid : isBlank c = false := (trimmed_hint line).start c (by rw [spelled]; rfl)
      have met : (cs.dropWhile fun c => !isBlank c).head? = some c := by
        rw [split, none, ← hinted, spelled]
        rfl
      have stops : (!isBlank c) = false := Text.head?_dropWhile met
      rw [solid] at stops
      cases stops
  · rw [named, hinted, ← split, List.takeWhile_append_dropWhile]

theorem name_eq_empty_iff (line : String) : name line = "" ↔ isBlankText line = true := by
  rw [← String.toList_inj, name, String.toList_ofList, isBlankText, List.all_eq_true,
    ← List.dropWhile_eq_nil_iff]
  cases front : line.toList.dropWhile isBlank with
  | nil => simp
  | cons c rest =>
    have solid : isBlank c = false := Text.head?_dropWhile (by rw [front]; rfl)
    simp [solid]

/-- A line splits into its name and its hint. -/
theorem splits_name_hint (line : String) : Splits line (name line) (hint line) := by
  obtain ⟨between, back, blank, blank', unhinted, spelled⟩ := exists_spelling line
  have trimmed : (trim line).toList =
      Text.trimEndChars ((name line).toList ++ (between ++ (hint line).toList)) := by
    rw [trim, String.toList_ofList, Text.trimChars, spelled, ← List.append_assoc between,
      ← List.append_assoc, Text.trimEndChars_append blank']
  refine ⟨name_not_blank line, name_eq_empty_iff line, trimmed_hint line, fun plain => ?_,
    fun some => ?_⟩
  · have solid := Text.trimmed_of_forall (name_not_blank line)
    rw [plain, String.toList_empty, List.append_nil, Text.trimEndChars_append blank,
      Text.trimEndChars_eq_self_iff.mpr solid.ending] at trimmed
    exact String.toList_inj.mp trimmed
  · refine ⟨String.ofList between, fun none => ?_, ?_, ?_⟩
    · exact some (unhinted (String.ofList_eq_empty_iff.mp none))
    · rw [isBlankText, String.toList_ofList]
      exact List.all_eq_true.mpr blank
    · have ends : ∀ c, ((name line).toList ++ (between ++ (hint line).toList)).getLast? = .some c →
          isBlank c = false := by
        intro c last
        have filled : (hint line).toList ≠ [] := fun none => some (String.toList_inj.mp none)
        rw [← List.append_assoc, List.getLast?_append_of_ne_nil _ filled] at last
        exact (trimmed_hint line).ending c last
      rw [Text.trimEndChars_eq_self_iff.mpr ends] at trimmed
      rw [← String.toList_inj, trimmed]
      simp

/-- A use line splits into its name, which is the first of its words, and its hint, in this way
only. Put together with a space between them, the two split again into themselves. -/
theorem line_splits (line : String) :
    Splits line (name line) (hint line) ∧ name line = (words line).headD "" ∧
      (∀ first rest, Splits line first rest → first = name line ∧ rest = hint line) ∧
      name (name line ++ " " ++ hint line) = name line ∧
      hint (name line ++ " " ++ hint line) = hint line := by
  have splits := splits_name_hint line
  have again := (splits_name_hint _).unique splits.again
  refine ⟨splits, ?_, fun first rest other => other.unique splits, again⟩
  rw [name, ← Text.head?_filter_pieces, words]
  cases (Text.pieces isBlank line.toList).filter fun piece => !piece.isEmpty with
  | nil => rfl
  | cons first others => rfl

end ToolTree.UseLine
