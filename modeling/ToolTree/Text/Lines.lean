import ToolTree.Text.Blank

/-!
Cutting a text at a separator, and its lines.

`pieces` keeps every piece, the empty ones included, so joining with the separator gives the
text back. A line ends with a line feed or with the end of the text; a carriage return before
the line feed belongs to the ending, and a text that ends with a line feed has no empty line
after it.
-/

namespace ToolTree.Text

/-- The maximal stretches of `cs` without a character that satisfies `p`, in order. There is
one more of them than there are such characters. -/
def pieces (p : Char → Bool) : List Char → List (List Char)
  | [] => [[]]
  | c :: rest =>
    if p c then [] :: pieces p rest
    else
      match pieces p rest with
      | [] => [[c]]
      | first :: others => (c :: first) :: others

theorem pieces_ne_nil (p : Char → Bool) (cs : List Char) : pieces p cs ≠ [] := by
  cases cs with
  | nil => simp [pieces]
  | cons c rest =>
    simp only [pieces]
    split
    · simp
    · split <;> simp

/-- The pieces of a text between the occurrences of one character. -/
def splitAt (sep : Char) (s : String) : List String :=
  (pieces (· == sep) s.toList).map String.ofList

/-- Drops one carriage return at the end. -/
def dropReturn (cs : List Char) : List Char :=
  if cs.getLast? = some '\r' then cs.dropLast else cs

/-- The lines among the pieces that line feeds cut: all pieces but the last end with a line
feed, and the last is a line only when something stands in it. -/
def linesOfPieces : List (List Char) → List (List Char)
  | [] => []
  | [last] => if last.isEmpty then [] else [last]
  | piece :: rest => dropReturn piece :: linesOfPieces rest

/-- The lines of a text, without their endings. -/
def lines (s : String) : List String :=
  (linesOfPieces (pieces (· == '\n') s.toList)).map String.ofList

/-- Every line with a line feed after it. -/
def unlines (ls : List String) : String :=
  String.join (ls.map (· ++ "\n"))

/-! ### Texts that are put together -/

theorem pieces_append {p : Char → Bool} {c : Char} (cut : p c = true) (cs rest : List Char) :
    pieces p (cs ++ c :: rest) = pieces p cs ++ pieces p rest := by
  induction cs with
  | nil =>
    show pieces p (c :: rest) = [] :: pieces p rest
    rw [pieces, if_pos cut]
  | cons first others ih =>
    rw [List.cons_append, pieces, pieces, ih]
    split
    · rfl
    · cases more : pieces p others with
      | nil => exact absurd more (pieces_ne_nil p others)
      | cons piece pieces => rfl

/-- What no cut stands in is one piece with what follows up to the next cut. -/
theorem pieces_whole {p : Char → Bool} {cs : List Char} (whole : ∀ c ∈ cs, p c = false)
    (more : List Char) : pieces p (cs ++ more) = (pieces p more).modifyHead (cs ++ ·) := by
  induction cs with
  | nil =>
    rw [List.nil_append]
    cases pieces p more <;> rfl
  | cons first others ih =>
    rw [List.forall_mem_cons] at whole
    rw [List.cons_append, pieces, if_neg (by simp [whole.1]), ih whole.2]
    cases next : pieces p more with
    | nil => exact absurd next (pieces_ne_nil p more)
    | cons piece pieces => rfl

section Separator

variable {sep : Char}

theorem beq_eq_false_of_notMem {cs : List Char} (free : sep ∉ cs) :
    ∀ c ∈ cs, (c == sep) = false := by
  intro c mem
  rw [beq_eq_false_iff_ne]
  rintro rfl
  exact free mem

theorem pieces_of_notMem {cs : List Char} (free : sep ∉ cs) : pieces (· == sep) cs = [cs] := by
  have single := pieces_whole (beq_eq_false_of_notMem free) []
  rwa [List.append_nil, pieces, List.modifyHead_cons, List.append_nil] at single

/-- Names without the separator, each behind one, are the pieces. -/
theorem pieces_flatMap {names : List String} (free : ∀ name ∈ names, sep ∉ name.toList) :
    pieces (· == sep) (names.flatMap fun name => sep :: name.toList) =
      [] :: names.map String.toList := by
  induction names with
  | nil => rfl
  | cons name rest ih =>
    obtain ⟨first, others⟩ := List.forall_mem_cons.mp free
    rw [List.flatMap_cons, List.cons_append, pieces, if_pos (beq_self_eq_true _),
      pieces_whole (beq_eq_false_of_notMem first), ih others, List.modifyHead_cons, List.append_nil,
      List.map_cons]

/-- No piece holds the separator. -/
theorem notMem_of_mem_pieces {cs piece : List Char} (mem : piece ∈ pieces (· == sep) cs) :
    sep ∉ piece := by
  induction cs generalizing piece with
  | nil => simp_all [pieces]
  | cons first rest ih =>
    rw [pieces] at mem
    split at mem
    · rcases List.mem_cons.mp mem with rfl | mem
      · simp
      · exact ih mem
    · next kept =>
      split at mem
      · next none => exact absurd none (pieces_ne_nil _ rest)
      · next head others more =>
        rw [more] at ih
        rcases List.mem_cons.mp mem with rfl | mem
        · rw [List.mem_cons, not_or]
          exact ⟨fun same => kept (by simp [same]), ih List.mem_cons_self⟩
        · exact ih (List.mem_cons_of_mem _ mem)

end Separator

theorem linesOfPieces_append (ps : List (List Char)) {qs : List (List Char)} (more : qs ≠ []) :
    linesOfPieces (ps ++ qs) = ps.map dropReturn ++ linesOfPieces qs := by
  induction ps with
  | nil => rfl
  | cons piece rest ih =>
    rw [List.cons_append, linesOfPieces, ih, List.map_cons, List.cons_append]
    exact fun last => more (List.append_eq_nil_iff.mp last).2

theorem lines_feed (a : String) :
    lines (a ++ "\n") = (pieces (· == '\n') a.toList).map (String.ofList ∘ dropReturn) := by
  have spelled : (a ++ "\n").toList = a.toList ++ '\n' :: [] := by simp
  rw [lines, spelled, pieces_append (by rfl), pieces, linesOfPieces_append _ (List.cons_ne_nil _ _)]
  simp [linesOfPieces]

/-- Behind a line feed the lines of what follows stand. -/
theorem lines_append (a b : String) : lines (a ++ "\n" ++ b) = lines (a ++ "\n") ++ lines b := by
  have spelled : (a ++ "\n" ++ b).toList = a.toList ++ '\n' :: b.toList := by simp
  rw [lines, spelled, pieces_append (by rfl), linesOfPieces_append _ (pieces_ne_nil _ _),
    lines_feed, lines, List.map_append, List.map_map]

theorem toList_intercalate (sep text : String) (texts : List String) :
    (String.intercalate sep (text :: texts)).toList =
      text.toList ++ texts.flatMap fun text => sep.toList ++ text.toList := by
  induction texts generalizing text with
  | nil => simp [String.intercalate_singleton]
  | cons next rest ih =>
    rw [String.intercalate_cons_cons, String.toList_append, String.toList_append, ih]
    simp

theorem unlines_cons (line : String) (rest : List String) :
    unlines (line :: rest) = line ++ "\n" ++ unlines rest := by
  rw [unlines, List.map_cons, String.join_cons]
  rfl

theorem unlines_append (ls more : List String) :
    unlines (ls ++ more) = unlines ls ++ unlines more := by
  rw [unlines, List.map_append, String.join_append]
  rfl

theorem lines_unlines (ls : List String) :
    lines (unlines ls) = ls.flatMap fun line => lines (line ++ "\n") := by
  induction ls with
  | nil => rfl
  | cons line rest ih => rw [unlines_cons, lines_append, ih, List.flatMap_cons]

/-- Lines that hold no line feed and do not end with a carriage return are read back. -/
theorem lines_unlines_of_whole {ls : List String}
    (whole : ∀ line ∈ ls, '\n' ∉ line.toList ∧ line.toList.getLast? ≠ some '\r') :
    lines (unlines ls) = ls := by
  have each : ∀ line ∈ ls, lines (line ++ "\n") = [line] := by
    intro line mem
    obtain ⟨free, ends⟩ := whole line mem
    rw [lines_feed, pieces_of_notMem free]
    simp [dropReturn, ends]
  rw [lines_unlines, List.flatMap_def, List.map_congr_left each, ← List.flatMap_def,
    List.flatMap_singleton']

/-- The first line of a text ends at its first line feed, whatever follows. -/
theorem head?_lines_append {s : String} (cut : '\n' ∈ s.toList) (t : String) :
    (lines (s ++ t)).head? = (lines s).head? := by
  have first (rest : List Char) {cs : List Char} (whole : ∀ c ∈ cs, (c == '\n') = false) :
      (linesOfPieces (pieces (· == '\n') (cs ++ '\n' :: rest))).head? = some (dropReturn cs) := by
    rw [pieces_whole whole, pieces, if_pos (beq_self_eq_true _)]
    cases more : pieces (· == '\n') rest with
    | nil => exact absurd more (pieces_ne_nil _ _)
    | cons piece others => simp [linesOfPieces]
  obtain ⟨before, after, split, free⟩ := List.eq_append_cons_of_mem cut
  have whole := beq_eq_false_of_notMem free
  rw [lines, lines, List.head?_map, List.head?_map, String.toList_append, split, List.append_assoc,
    List.cons_append, first _ whole, first _ whole]

end ToolTree.Text
