import Mathlib.Data.List.DropRight
import ToolTree.Docs.Markdown

/-!
The lines of a text that are not blank.

`Text.solidLines` lists them without the blanks at their ends. What stands before a line feed and
what stands behind it contribute their own (`solidLines_append`), so those of a text that is put
together are those of its parts, in order. Neither blank lines nor blanks at the end of a text
count, so collapsing blank lines loses nothing but blanks (`solidLines_collapseBlankLines`).
-/

namespace ToolTree.Text

/-- The lines of a text that are not blank, each without the blanks at its end. -/
def solidLines (s : String) : List String :=
  ((lines s).filter fun line => !isBlankText line).map trimEnd

/-! ### Blanks at an end -/

theorem trimEndChars_eq_nil_iff {cs : List Char} :
    trimEndChars cs = [] ↔ cs.all isBlank = true := by
  rw [List.all_eq_true]
  exact List.rdropWhile_eq_nil_iff

theorem trimEndChars_concat {c : Char} (blank : isBlank c = true) (cs : List Char) :
    trimEndChars (cs ++ [c]) = trimEndChars cs :=
  List.rdropWhile_concat_pos isBlank cs c blank

theorem trimEndChars_dropReturn (cs : List Char) :
    trimEndChars (dropReturn cs) = trimEndChars cs := by
  unfold dropReturn
  split
  · next ends =>
    conv_rhs => rw [← List.dropLast_append_getLast? _ ends]
    exact (trimEndChars_concat (by decide) cs.dropLast).symm
  · rfl

/-- The characters of a text are those that trimming leaves, and blanks behind them. -/
theorem exists_blanks (cs : List Char) :
    ∃ blanks, (∀ c ∈ blanks, isBlank c = true) ∧ cs = trimEndChars cs ++ blanks := by
  refine ⟨cs.rtakeWhile isBlank, fun c => List.mem_rtakeWhile_imp, ?_⟩
  exact List.rdropWhile_append_rtakeWhile.symm

theorem trimEndChars_append {blanks : List Char} (blank : ∀ c ∈ blanks, isBlank c = true)
    (cs : List Char) : trimEndChars (cs ++ blanks) = trimEndChars cs := by
  induction blanks generalizing cs with
  | nil => rw [List.append_nil]
  | cons c rest ih =>
    obtain ⟨first, others⟩ := List.forall_mem_cons.mp blank
    rw [← List.singleton_append, ← List.append_assoc, ih others, trimEndChars_concat first]

theorem trimEndChars_eq_self_iff {cs : List Char} :
    trimEndChars cs = cs ↔ ∀ c, cs.getLast? = some c → isBlank c = false := by
  refine List.rdropWhile_eq_self_iff.trans ⟨fun ends c last => ?_, fun ends some => ?_⟩
  · have some : cs ≠ [] := by
      rintro rfl
      cases last
    rw [List.getLast?_eq_some_getLast some, Option.some.injEq] at last
    simpa [last] using ends some
  · simp [ends _ (List.getLast?_eq_some_getLast some)]

theorem isBlank_of_getLast?_trimEndChars {cs : List Char} {c : Char}
    (last : (trimEndChars cs).getLast? = some c) : isBlank c = false :=
  trimEndChars_eq_self_iff.mp (List.rdropWhile_idempotent isBlank cs) c last

/-! ### Pieces between line feeds -/

/-- What a piece without line feeds contributes: nothing if it is blank. -/
def solid (piece : List Char) : List String :=
  if (trimEndChars piece).isEmpty then [] else [String.ofList (trimEndChars piece)]

theorem solid_eq (piece : List Char) : solid piece =
    ([String.ofList piece].filter fun line => !isBlankText line).map trimEnd := by
  unfold solid
  by_cases blank : piece.all isBlank = true
  · simp [isBlankText, blank, trimEndChars_eq_nil_iff.mpr blank]
  · have kept : ¬ trimEndChars piece = [] := fun empty => blank (trimEndChars_eq_nil_iff.mp empty)
    simp [isBlankText, blank, kept, trimEnd]

theorem solid_dropReturn (piece : List Char) : solid (dropReturn piece) = solid piece := by
  rw [solid, solid, trimEndChars_dropReturn]

theorem flatMap_solid_linesOfPieces (ps : List (List Char)) :
    (linesOfPieces ps).flatMap solid = ps.flatMap solid := by
  fun_induction linesOfPieces ps with
  | case1 => rfl
  | case2 last empty =>
    rw [List.isEmpty_iff.mp empty]
    rfl
  | case3 last filled => rfl
  | case4 piece rest _ ih => rw [List.flatMap_cons, List.flatMap_cons, ih, solid_dropReturn]

theorem solidLines_eq (s : String) :
    solidLines s = (pieces (· == '\n') s.toList).flatMap solid := by
  rw [← flatMap_solid_linesOfPieces, solidLines, lines]
  generalize linesOfPieces (pieces (· == '\n') s.toList) = ps
  induction ps with
  | nil => rfl
  | cons piece rest ih =>
    rw [List.map_cons, ← List.singleton_append, List.filter_append, List.map_append, ih,
      List.flatMap_cons, solid_eq]

theorem solidLines_ofList {piece : List Char} (whole : '\n' ∉ piece) :
    solidLines (String.ofList piece) = solid piece := by
  rw [solidLines_eq, String.toList_ofList, pieces_of_notMem whole, List.flatMap_singleton]

/-! ### Texts that are put together -/

@[simp] theorem solidLines_empty : solidLines "" = [] := rfl

/-- What stands before a line feed and what stands behind it contribute their own lines. -/
theorem solidLines_append (a b : String) :
    solidLines (a ++ "\n" ++ b) = solidLines a ++ solidLines b := by
  have spelled : (a ++ "\n" ++ b).toList = a.toList ++ '\n' :: b.toList := by simp
  rw [solidLines_eq, solidLines_eq, solidLines_eq, spelled, pieces_append (by rfl),
    List.flatMap_append]

theorem solidLines_feed (a : String) : solidLines (a ++ "\n") = solidLines a := by
  have whole := solidLines_append a ""
  rwa [String.append_empty, solidLines_empty, List.append_nil] at whole

theorem solidLines_unlines (ls : List String) :
    solidLines (unlines ls) = ls.flatMap solidLines := by
  induction ls with
  | nil => rfl
  | cons line rest ih => rw [unlines_cons, solidLines_append, ih, List.flatMap_cons]

/-- A text that ends its last line and contributes what the texts `texts` do, whatever follows. -/
def Contributes (part : String) (texts : List String) : Prop :=
  ∀ rest, solidLines (part ++ rest) = texts.flatMap solidLines ++ solidLines rest

theorem contributes_empty : Contributes "" [] :=
  fun rest => by rw [String.empty_append, List.flatMap_nil, List.nil_append]

theorem contributes_line (text : String) : Contributes (text ++ "\n") [text] :=
  fun rest => by rw [solidLines_append, List.flatMap_singleton]

/-- A text that is spelled with a line feed at its end. -/
theorem contributes_of_eq {part : String} (text : String) (spelled : part = text ++ "\n") :
    Contributes part [text] :=
  spelled ▸ contributes_line text

theorem getLast?_append {a b : String} {c : Char} (ends : b.toList.getLast? = some c) :
    (a ++ b).toList.getLast? = some c := by
  rw [String.toList_append, List.getLast?_append, ends]
  rfl

section Contributes

variable {a b : String} {texts texts' : List String}

theorem Contributes.append (h : Contributes a texts) (h' : Contributes b texts') :
    Contributes (a ++ b) (texts ++ texts') := by
  intro rest
  rw [String.append_assoc, h, h', List.flatMap_append, List.append_assoc]

/-- A blank line contributes nothing. -/
theorem Contributes.feed (h : Contributes a texts) : Contributes (a ++ "\n") texts := by
  intro rest
  have blank := solidLines_append "" rest
  rw [String.empty_append, solidLines_empty, List.nil_append] at blank
  rw [String.append_assoc, h, blank]

theorem contributes_paragraph (text : String) : Contributes (text ++ "\n\n") [text] := by
  rw [show "\n\n" = "\n" ++ "\n" from rfl, ← String.append_assoc]
  exact (contributes_line text).feed

theorem contributes_flatMap {α : Type} {entries : List α} {part : α → String}
    {said : α → List String} (each : ∀ entry ∈ entries, Contributes (part entry) (said entry)) :
    Contributes (String.join (entries.map part)) (entries.flatMap said) := by
  induction entries with
  | nil => exact contributes_empty
  | cons entry rest ih =>
    obtain ⟨first, others⟩ := List.forall_mem_cons.mp each
    rw [List.map_cons, String.join_cons, List.flatMap_cons]
    exact first.append (ih others)

end Contributes

/-! ### Blanks at the end of a text -/

/-- A character that is no cut goes to the last piece. -/
theorem pieces_concat {p : Char → Bool} {c : Char} (kept : p c = false) (cs : List Char) :
    ∃ front last, pieces p cs = front ++ [last] ∧
      pieces p (cs ++ [c]) = front ++ [last ++ [c]] := by
  induction cs with
  | nil => exact ⟨[], [], rfl, by simp [pieces, kept]⟩
  | cons first rest ih =>
    obtain ⟨front, last, before, after⟩ := ih
    rw [List.cons_append, pieces, pieces, before, after]
    by_cases cut : p first = true
    · exact ⟨[] :: front, last, by simp [cut], by simp [cut]⟩
    · cases front with
      | nil => exact ⟨[], first :: last, by simp [cut], by simp [cut]⟩
      | cons piece others => exact ⟨(first :: piece) :: others, last, by simp [cut], by simp [cut]⟩

theorem flatMap_solid_concat {c : Char} (blank : isBlank c = true) (cs : List Char) :
    (pieces (· == '\n') (cs ++ [c])).flatMap solid = (pieces (· == '\n') cs).flatMap solid := by
  by_cases feed : c = '\n'
  · rw [pieces_append (by simpa using feed), List.flatMap_append]
    simp [pieces, solid, trimEndChars, dropEndWhile]
  · obtain ⟨front, last, before, after⟩ :=
      pieces_concat (p := (· == '\n')) (beq_eq_false_iff_ne.mpr feed) cs
    rw [before, after, List.flatMap_append, List.flatMap_append, List.flatMap_singleton,
      List.flatMap_singleton, solid, solid, trimEndChars_concat blank]

theorem flatMap_solid_blanks {blanks : List Char} (blank : ∀ c ∈ blanks, isBlank c = true)
    (cs : List Char) :
    (pieces (· == '\n') (cs ++ blanks)).flatMap solid = (pieces (· == '\n') cs).flatMap solid := by
  induction blanks generalizing cs with
  | nil => rw [List.append_nil]
  | cons c rest ih =>
    obtain ⟨first, others⟩ := List.forall_mem_cons.mp blank
    rw [← List.singleton_append, ← List.append_assoc, ih others, flatMap_solid_concat first]

theorem solidLines_trimEnd (s : String) : solidLines (trimEnd s) = solidLines s := by
  obtain ⟨blanks, blank, split⟩ := exists_blanks s.toList
  rw [solidLines_eq s, split, flatMap_solid_blanks blank, solidLines_eq, trimEnd,
    String.toList_ofList]

theorem solidLines_eq_nil {s : String} (blank : isBlankText s = true) : solidLines s = [] := by
  rw [← solidLines_trimEnd, trimEnd, trimEndChars_eq_nil_iff.mpr blank]
  rfl

/-- A character that is no cut stands in one of the pieces. -/
theorem exists_piece_of_mem {p : Char → Bool} {cs : List Char} {c : Char} (mem : c ∈ cs)
    (kept : p c = false) : ∃ piece ∈ pieces p cs, c ∈ piece := by
  induction cs with
  | nil => cases mem
  | cons first rest ih =>
    rw [pieces]
    by_cases cut : p first = true
    · rw [if_pos cut]
      rcases List.mem_cons.mp mem with rfl | mem
      · rw [cut] at kept
        cases kept
      · obtain ⟨piece, among, mem⟩ := ih mem
        exact ⟨piece, List.mem_cons_of_mem _ among, mem⟩
    · rw [if_neg cut]
      cases more : pieces p rest with
      | nil => exact absurd more (pieces_ne_nil p rest)
      | cons head others =>
        rw [more] at ih
        rcases List.mem_cons.mp mem with rfl | mem
        · exact ⟨c :: head, List.mem_cons_self, List.mem_cons_self⟩
        · obtain ⟨piece, among, mem⟩ := ih mem
          rcases List.mem_cons.mp among with rfl | among
          · exact ⟨first :: piece, List.mem_cons_self, List.mem_cons_of_mem _ mem⟩
          · exact ⟨piece, List.mem_cons_of_mem _ among, mem⟩

theorem solidLines_eq_nil_iff {s : String} : solidLines s = [] ↔ isBlankText s = true := by
  refine ⟨fun none => List.all_eq_true.mpr fun c mem => ?_, solidLines_eq_nil⟩
  by_cases feed : c = '\n'
  · rw [feed]
    decide
  · obtain ⟨piece, among, mem⟩ :=
      exists_piece_of_mem (p := (· == '\n')) mem (beq_eq_false_iff_ne.mpr feed)
    rw [solidLines_eq, List.flatMap_eq_nil_iff] at none
    have blank : trimEndChars piece = [] := by
      have empty := none piece among
      unfold solid at empty
      split at empty
      · next left => exact List.isEmpty_iff.mp left
      · cases empty
    exact List.all_eq_true.mp (trimEndChars_eq_nil_iff.mp blank) c mem

/-! ### Collapsed blank lines -/

/-- A line is a piece, perhaps without a carriage return at its end. -/
theorem sublist_of_mem_linesOfPieces {ps : List (List Char)} {line : List Char}
    (mem : line ∈ linesOfPieces ps) : ∃ piece ∈ ps, line.Sublist piece := by
  fun_induction linesOfPieces ps with
  | case1 => cases mem
  | case2 last empty => cases mem
  | case3 last filled => exact ⟨line, mem, .refl line⟩
  | case4 piece rest _ ih =>
    rcases List.mem_cons.mp mem with rfl | mem
    · refine ⟨piece, List.mem_cons_self, ?_⟩
      unfold dropReturn
      split
      · exact List.dropLast_sublist piece
      · exact .refl piece
    · obtain ⟨piece, mem, sub⟩ := ih mem
      exact ⟨piece, List.mem_cons_of_mem _ mem, sub⟩

/-- No line holds a line feed. -/
theorem feed_notMem_of_mem_lines {s line : String} (mem : line ∈ lines s) : '\n' ∉ line.toList := by
  obtain ⟨cs, among, rfl⟩ := List.mem_map.mp mem
  rw [String.toList_ofList]
  intro feed
  obtain ⟨piece, among, sub⟩ := sublist_of_mem_linesOfPieces among
  exact notMem_of_mem_pieces among (sub.subset feed)

theorem flatMap_solidLines_lines (s : String) : (lines s).flatMap solidLines = solidLines s := by
  have each : ∀ line ∈ lines s, solidLines line = solid line.toList := fun line mem => by
    rw [← solidLines_ofList (feed_notMem_of_mem_lines mem), String.ofList_toList]
  rw [List.flatMap_congr each, solidLines_eq s, ← flatMap_solid_linesOfPieces, lines,
    List.flatMap_map]
  exact List.flatMap_congr fun cs _ => by rw [String.toList_ofList]

end ToolTree.Text

namespace ToolTree.Docs

open Text (isBlankText solidLines solidLines_eq_nil)

/-- Only blank lines are dropped. -/
theorem flatMap_dropRepeatedBlanks (blank : Bool) (ls : List String) :
    (dropRepeatedBlanks blank ls).flatMap solidLines = ls.flatMap solidLines := by
  induction ls generalizing blank with
  | nil => rfl
  | cons line rest ih =>
    rw [dropRepeatedBlanks]
    split
    · next empty =>
      split
      · rw [ih, List.flatMap_cons, solidLines_eq_nil empty, List.nil_append]
      · rw [List.flatMap_cons, List.flatMap_cons, ih]
    · rw [List.flatMap_cons, List.flatMap_cons, ih]

/-- Collapsing blank lines keeps every line that is not blank. -/
theorem solidLines_collapseBlankLines (text : String) :
    solidLines (collapseBlankLines text) = solidLines text := by
  rw [collapseBlankLines, Text.solidLines_feed, Text.solidLines_trimEnd, Text.solidLines_unlines,
    flatMap_dropRepeatedBlanks, Text.flatMap_solidLines_lines]

end ToolTree.Docs
