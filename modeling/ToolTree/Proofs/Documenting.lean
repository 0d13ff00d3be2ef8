import Mathlib.Data.List.Flatten
import ToolTree.Proofs.SolidLines
import ToolTree.Proofs.Walking

/-!
What the documentation covers.

`Documented` is a command with its place, and `Documented.texts` is what its section says, text by
text; `ToolDecl.openingTexts` is what stands before the sections. The sections of a tool are those
of the commands that no hidden command stands on the way to (`mem_documented_iff`), and where every
map of commands is in order of its keys, they stand in the order of the keys that lead to them.
Collapsing blank lines takes none of their lines away, so the lines of the documentation are those
of the opening and of these sections (`markdown_covers`).
-/

namespace ToolTree

open Docs
open Text (Contributes contributes_empty contributes_flatMap contributes_line
  contributes_of_eq contributes_paragraph solidLines)

/-! ### Flags -/

/-- A text with another text in place of each occurrence of a character. -/
def replaced (c : Char) (other text : String) : String :=
  String.intercalate other (Text.splitAt c text)

/-- A text as it stands in a cell: a bar gets a backslash, a line feed becomes a space. -/
def cellText (text : String) : String :=
  replaced '\n' " " (replaced '|' "\\|" text)

namespace FlagDecl

/-- The row of a flag: its name, its shorthand, its type, its default text and its usage text, with
bars around them. Whether it is required stands behind the usage text. -/
def rowText (flag : FlagDecl) : String :=
  let cells := [
    "`--" ++ flag.name ++ "`",
    if flag.shorthand = "" then "" else "`-" ++ flag.shorthand ++ "`",
    flag.kind,
    if flag.defaultText = "" then "" else "`" ++ cellText flag.defaultText ++ "`",
    cellText flag.usage ++ if flag.required then " **(required)**" else ""]
  "| " ++ String.intercalate " | " cells ++ " |"

/-- What is said of flags under a title: the head of a table and a row for each flag that is not
hidden. Where there is none, nothing is said. -/
def tableTexts (title : String) (flags : List FlagDecl) : List String :=
  let shown := flags.filter fun flag => flag.hidden = false
  if shown = [] then []
  else [title,
    "| Flag | Shorthand | Type | Default | Description |",
    "|------|-----------|------|---------|-------------|"] ++ shown.map rowText

end FlagDecl

theorem toList_replaced (c : Char) (other text : String) :
    (replaced c other text).toList =
      text.toList.flatMap fun d => if d = c then other.toList else [d] := by
  rw [replaced, Text.splitAt]
  induction text.toList with
  | nil => simp [Text.pieces, String.intercalate_singleton]
  | cons d rest ih =>
    rw [List.flatMap_cons, ← ih, Text.pieces]
    cases more : Text.pieces (· == c) rest with
    | nil => exact absurd more (Text.pieces_ne_nil _ rest)
    | cons first others =>
      by_cases cut : d = c
      · simp [cut, String.intercalate_cons_cons]
      · simp [cut]

theorem cell_eq_cellText (text : String) : cell text = cellText text := by
  rw [← String.toList_inj, cell, cellText, toList_replaced, toList_replaced, String.toList_ofList,
    List.flatMap_assoc]
  refine List.flatMap_congr fun d _ => ?_
  by_cases bar : d = '|'
  · simp [bar]
  · by_cases feed : d = '\n'
    · simp [feed]
    · simp [bar, feed]

theorem flagRow_eq_rowText (flag : FlagDecl) : flagRow flag = flag.rowText ++ "\n" := by
  simp only [flagRow, FlagDecl.rowText, cell_eq_cellText, ← String.toList_inj, toString,
    String.toList_append, Text.toList_intercalate]
  simp

/-! ### Sections -/

/-- A command that the documentation tells of: the keys that lead to it, the names of the commands
above it without that of the root, its own name, and what it says of itself. -/
structure Documented where
  keys : List String
  above : List String
  name : String
  command : CommandFields

namespace Documented

/-- How the command is called: by the names of the root and of the commands above, and its use line,
or its name where that is empty. -/
def invocation (rootName : String) (entry : Documented) : String :=
  let useLine := if entry.command.useLine = "" then entry.name else entry.command.useLine
  String.intercalate " " (rootName :: entry.above ++ [useLine])

/-- What the section of the command says, text by text: a heading with three marks and one for each
command above, the summary, how it is called, the details, and then its aliases, the rule on its
words and its visible flags, as far as it has them. -/
def texts (rootName : String) (entry : Documented) : List String :=
  let aliases := if entry.command.aliases.isEmpty then []
    else ["**Aliases:** " ++ String.intercalate ", " entry.command.aliases]
  let rule := match entry.command.args.map ArgsDecl.arity with
    | some (.ok rule) => ["**Arguments:** " ++ rule.describe]
    | _ => []
  [String.ofList (List.replicate (3 + entry.above.length) '#') ++ " " ++ entry.name,
    entry.command.summary,
    "```bash", entry.invocation rootName, "```",
    entry.command.details] ++ aliases ++ rule ++
    FlagDecl.tableTexts "**Flags:**" entry.command.flags

/-- The section of the command. -/
def sectionText (rootName : String) (entry : Documented) : String :=
  section_ entry.command entry.name (pathFrom rootName entry.above) entry.above.length

end Documented

theorem intercalate_append (s a b : String) (rest : List String) :
    String.intercalate s ((a ++ b) :: rest) = a ++ String.intercalate s (b :: rest) := by
  cases rest with
  | nil => rw [String.intercalate_singleton, String.intercalate_singleton]
  | cons c others => simp only [String.intercalate_cons_cons, String.append_assoc]

theorem pathFrom_concat (path : String) (names : List String) (name : String) :
    pathFrom path (names ++ [name]) = childPath (pathFrom path names) name :=
  List.foldl_concat ..

/-- A path is its names with spaces between them. -/
theorem pathFrom_eq_intercalate (path : String) (names : List String) :
    pathFrom path names = String.intercalate " " (path :: names) := by
  induction names generalizing path with
  | nil => exact String.intercalate_singleton.symm
  | cons name rest ih =>
    rw [pathFrom, List.foldl_cons, ← pathFrom, ih, childPath, intercalate_append,
      String.intercalate_cons_cons]

/-! ### The lines of a section -/

theorem contributes_shellBlock (line : String) :
    Contributes (shellBlock line) ["```bash", line, "```"] := by
  have spelled : shellBlock line =
      "```bash" ++ "\n" ++ (line ++ "\n" ++ ("```" ++ "\n\n")) := by
    simp [shellBlock, ← String.toList_inj]
  rw [spelled]
  exact (contributes_line _).append ((contributes_line _).append (contributes_paragraph _))

theorem contributes_flagTable (flags : List FlagDecl) :
    Contributes (flagTable flags) ([
      "| Flag | Shorthand | Type | Default | Description |",
      "|------|-----------|------|---------|-------------|"] ++ flags.map FlagDecl.rowText) := by
  have rows : Contributes (String.join (flags.map flagRow))
      (flags.flatMap fun flag => [flag.rowText]) :=
    contributes_flatMap fun flag _ => contributes_of_eq _ (flagRow_eq_rowText flag)
  rw [← List.map_eq_flatMap] at rows
  have titles := (contributes_of_eq "| Flag | Shorthand | Type | Default | Description |"
    rfl).append (contributes_of_eq "|------|-----------|------|---------|-------------|" rfl)
  unfold flagTable
  exact titles.append rows

/-- The part of a document that tells of flags. -/
theorem contributes_flagPart (title : String) (flags : List FlagDecl) :
    Contributes (if (Docs.visibleFlags flags).isEmpty then ""
        else title ++ "\n\n" ++ flagTable (Docs.visibleFlags flags) ++ "\n")
      (FlagDecl.tableTexts title flags) := by
  have shown : (flags.filter fun flag => flag.hidden = false) = Docs.visibleFlags flags :=
    List.filter_congr fun flag _ => by cases flag.hidden <;> rfl
  simp only [FlagDecl.tableTexts, shown]
  by_cases none : Docs.visibleFlags flags = []
  · rw [if_pos none, if_pos (List.isEmpty_iff.mpr none)]
    exact contributes_empty
  · rw [if_neg none, if_neg fun empty => none (List.isEmpty_iff.mp empty)]
    exact ((contributes_paragraph title).append (contributes_flagTable _)).feed

theorem contributes_optional (text : String) : Contributes (paragraph text) [text] := by
  unfold paragraph
  split
  · next empty =>
    rw [empty]
    exact contributes_empty
  · exact contributes_paragraph text

/-- A section contributes the texts of its command. -/
theorem contributes_section (rootName : String) (entry : Documented) :
    Contributes (entry.sectionText rootName) (entry.texts rootName) := by
  have called : Contributes (shellBlock (pathFrom rootName entry.above ++ " " ++
      if entry.command.useLine = "" then entry.name else entry.command.useLine))
      ["```bash", entry.invocation rootName, "```"] := by
    rw [Documented.invocation, List.cons_append, ← pathFrom_eq_intercalate, pathFrom_concat]
    exact contributes_shellBlock _
  unfold Documented.sectionText section_ Documented.texts
  refine (((((Contributes.append (contributes_paragraph _) (contributes_optional _)).append
    called).append (contributes_optional _)).append ?_).append ?_).append
      (contributes_flagPart "**Flags:**" _)
  · split
    · exact contributes_empty
    · exact contributes_paragraph _
  · rcases entry.command.args.map ArgsDecl.arity with _ | ⟨_ | rule⟩
    · exact contributes_empty
    · exact contributes_empty
    · exact contributes_paragraph _

/-! ### The commands that have a section -/

/-- A command below another, which stands under a key. -/
def Documented.under (key : String) (entry : Documented) : Documented :=
  { entry with keys := key :: entry.keys }

mutual

/-- A command and the visible ones below it, in the order of the walk. -/
def CommandDecl.documented (above : List String) (name : String) : CommandDecl → List Documented
  | ⟨fields, commands⟩ => ⟨[], above, name, fields⟩ :: documentedBelow (above ++ [name]) commands

/-- The visible commands among some, and those below them. -/
def documentedBelow (above : List String) : List (String × CommandDecl) → List Documented
  | [] => []
  | (key, command) :: rest =>
    (if command.hidden then []
      else (command.documented above (command.nameOr key)).map (Documented.under key)) ++
      documentedBelow above rest

end

theorem documentedBelow_eq_flatMap (above : List String) (commands : List (String × CommandDecl)) :
    documentedBelow above commands = commands.flatMap fun entry =>
      if entry.2.hidden then []
      else (entry.2.documented above (entry.2.nameOr entry.1)).map (Documented.under entry.1) := by
  induction commands with
  | nil => rfl
  | cons entry rest ih => rw [documentedBelow, ih, List.flatMap_cons]

theorem sectionsBelow_eq_flatMap (parent : String) (depth : Nat)
    (commands : List (String × CommandDecl)) :
    sectionsBelow parent depth commands = commands.flatMap fun entry =>
      if entry.2.hidden then []
      else commandSections (entry.2.nameOr entry.1) parent depth entry.2 := by
  induction commands with
  | nil => rfl
  | cons entry rest ih => rw [sectionsBelow, ih, List.flatMap_cons]

theorem sectionsBelow_eq_map {rootName : String} {above : List String}
    {commands : List (String × CommandDecl)}
    (each : ∀ entry ∈ commands, ∀ name,
      commandSections name (pathFrom rootName above) above.length entry.2 =
        (entry.2.documented above name).map (Documented.sectionText rootName)) :
    sectionsBelow (pathFrom rootName above) above.length commands =
      (documentedBelow above commands).map (Documented.sectionText rootName) := by
  rw [sectionsBelow_eq_flatMap, documentedBelow_eq_flatMap, List.map_flatMap]
  refine List.flatMap_congr fun entry mem => ?_
  split
  · rfl
  · rw [each entry mem, List.map_map]
    rfl

theorem commandSections_eq_map (rootName : String) (c : CommandDecl) (above : List String)
    (name : String) : commandSections name (pathFrom rootName above) above.length c =
      (c.documented above name).map (Documented.sectionText rootName) := by
  induction c using CommandDecl.induction generalizing above name with
  | step fields commands ih =>
    have parent : pathFrom rootName above ++ " " ++ name = pathFrom rootName (above ++ [name]) :=
      (pathFrom_concat rootName above name).symm
    have depth : above.length + 1 = (above ++ [name]).length := by simp
    rw [commandSections, CommandDecl.documented, parent, depth,
      sectionsBelow_eq_map fun entry mem name' => ih entry mem _ name', List.map_cons]
    rfl

namespace CommandDecl

/-- The entry is about the command that its keys lead to from `c`. That command is visible, and so
are all on the way, `c` apart. The names in the entry are those on the way, behind `path`. -/
def Shows (c : CommandDecl) (path : List String) (entry : Documented) : Prop :=
  ∃ uppers names d, c.LeadsAt entry.keys uppers names d ∧
    (∀ command ∈ (uppers ++ [d.toCommandFields]).tail, command.hidden = false) ∧
    entry.above ++ [entry.name] = path ++ names ∧ entry.command = d.toCommandFields

/-- The first command on the way down. -/
theorem LeadsAt.exists_tail {c d : CommandDecl} {keys : List String} {uppers : List CommandFields}
    {names : List String} (h : c.LeadsAt keys uppers names d) :
    uppers ++ [d.toCommandFields] =
      c.toCommandFields :: (uppers ++ [d.toCommandFields]).tail := by
  cases h <;> rfl

/-- An entry is about the command itself or about a visible one below it. -/
theorem shows_iff {c : CommandDecl} {path : List String} {entry : Documented} :
    c.Shows path entry ↔
      (entry.keys = [] ∧ entry.above ++ [entry.name] = path ∧ entry.command = c.toCommandFields) ∨
      ∃ key child, (key, child) ∈ c.commands ∧ child.hidden = false ∧
        ∃ below : Documented, below.under key = entry ∧
          child.Shows (path ++ [child.nameOr key]) below := by
  obtain ⟨keys, above, name, command⟩ := entry
  constructor
  · rintro ⟨uppers, names, d, leads, visible, named, said⟩
    cases leads with
    | here => exact .inl ⟨rfl, by simpa using named, said⟩
    | @down _ key child keys uppers names d mem leads =>
      rw [List.cons_append, List.tail_cons, leads.exists_tail, List.forall_mem_cons] at visible
      exact .inr ⟨key, child, mem, visible.1, ⟨keys, above, name, command⟩, rfl, uppers, names, d,
        leads, visible.2, by simpa using named, said⟩
  · rintro (⟨rfl, named, said⟩ | ⟨key, child, mem, shown, below, same, lower⟩)
    · exact ⟨[], [], c, .here c, by simp, by simpa using named, said⟩
    · obtain ⟨uppers, names, d, leads, visible, named, said⟩ := lower
      cases same
      refine ⟨_, _, d, .down mem leads, ?_, by simpa using named, said⟩
      rw [List.cons_append, List.tail_cons, leads.exists_tail, List.forall_mem_cons]
      exact ⟨shown, visible⟩

/-- Among the commands below a path are those that are visible and all that these show. -/
theorem mem_documentedBelow_iff {above : List String} {commands : List (String × CommandDecl)}
    {entry : Documented}
    (each : ∀ command ∈ commands, ∀ name below,
      below ∈ command.2.documented above name ↔ command.2.Shows (above ++ [name]) below) :
    entry ∈ documentedBelow above commands ↔ ∃ key child, (key, child) ∈ commands ∧
      child.hidden = false ∧ ∃ below : Documented, below.under key = entry ∧
        child.Shows (above ++ [child.nameOr key]) below := by
  rw [documentedBelow_eq_flatMap, List.mem_flatMap]
  constructor
  · rintro ⟨⟨key, child⟩, mem, among⟩
    split at among
    · cases among
    · next shown =>
      obtain ⟨below, listed, same⟩ := List.mem_map.mp among
      exact ⟨key, child, mem, eq_false_of_ne_true shown, below, same, (each _ mem _ _).mp listed⟩
  · rintro ⟨key, child, mem, shown, below, same, lower⟩
    refine ⟨(key, child), mem, ?_⟩
    rw [if_neg (by simp [shown])]
    exact List.mem_map.mpr ⟨below, (each _ mem _ _).mpr lower, same⟩

theorem mem_documented_iff {c : CommandDecl} {above : List String} {name : String}
    {entry : Documented} :
    entry ∈ c.documented above name ↔ c.Shows (above ++ [name]) entry := by
  induction c using CommandDecl.induction generalizing above name entry with
  | step fields commands ih =>
    rw [documented, List.mem_cons, mem_documentedBelow_iff fun command mem _ _ => ih command mem,
      shows_iff]
    refine or_congr_left ?_
    obtain ⟨keys, above', name', command⟩ := entry
    simp [and_assoc]

/-- The listing leaves places of the walk out. -/
theorem documentedBelow_sublist {above : List String} {path : String}
    {commands : List (String × CommandDecl)}
    (each : ∀ command ∈ commands, ∀ name path',
      ((command.2.documented above name).map Documented.keys).Sublist
        ((command.2.placed path').map Prod.fst)) :
    ((documentedBelow above commands).map Documented.keys).Sublist
      ((placedBelow path commands).map Prod.fst) := by
  rw [documentedBelow_eq_flatMap, placedBelow_eq_flatMap, List.map_flatMap, List.map_flatMap]
  refine List.Sublist.flatMap_right _ fun entry mem => ?_
  split
  · exact List.nil_sublist _
  · have below := (each entry mem (entry.2.nameOr entry.1)
      (childPath path (entry.2.nameOr entry.1))).map (entry.1 :: ·)
    rw [List.map_map] at below ⊢
    rwa [List.map_map] at below ⊢

theorem documented_sublist (c : CommandDecl) (above : List String) (name path : String) :
    ((c.documented above name).map Documented.keys).Sublist ((c.placed path).map Prod.fst) := by
  induction c using CommandDecl.induction generalizing above name path with
  | step fields commands ih =>
    have below : ((documentedBelow (above ++ [name]) commands).map Documented.keys).Sublist
        ((placedBelow path commands).map Prod.fst) :=
      documentedBelow_sublist fun entry mem name' path' => ih entry mem _ name' path'
    rw [documented, placed, List.map_cons, List.map_cons]
    exact below.cons_cons _

end CommandDecl

/-! ### The documentation of a tool -/

/-- What is said of the tool before its commands, text by text: its name, its description and its
version, how it is installed, how it is called, the details of the root, and the flags of the root
that are not hidden. -/
def ToolDecl.openingTexts (tool : ToolDecl) : List String :=
  let version := if tool.version = "" then [] else ["**Version:** " ++ tool.version]
  let below := if tool.commands.any fun (_, command) => !command.hidden then " [command]" else ""
  ["# " ++ tool.name, tool.description] ++ version ++
    ["## Installation"] ++ ["```bash", "cargo install " ++ tool.name, "```"] ++
    ["## Usage"] ++ ["```bash", tool.root.useLine ++ below, "```"] ++ [tool.root.details] ++
    FlagDecl.tableTexts "### Global Flags" tool.root.flags ++ ["## Commands"]

theorem contributes_header (tool : ToolDecl) :
    Contributes (header tool) tool.openingTexts := by
  have below : (if tool.commands.all fun (_, command) => command.hidden then "" else " [command]") =
      if tool.commands.any fun (_, command) => !command.hidden then " [command]" else "" := by
    cases all : tool.commands.all fun (_, command) => command.hidden with
    | true => rw [if_pos rfl, if_neg (by simpa using all)]
    | false => rw [if_neg Bool.false_ne_true, if_pos (by simpa using all)]
  unfold header ToolDecl.openingTexts
  rw [below]
  have version : Contributes (if tool.version = "" then "" else s!"**Version:** {tool.version}\n\n")
      (if tool.version = "" then [] else ["**Version:** " ++ tool.version]) := by
    split
    · exact contributes_empty
    · exact contributes_paragraph _
  have named := ((contributes_paragraph ("# " ++ tool.name)).append
    (contributes_optional tool.description)).append version
  have installed := (named.append (contributes_paragraph "## Installation")).append
    (contributes_shellBlock ("cargo install " ++ tool.name))
  have called (useLine : String) := ((installed.append (contributes_paragraph "## Usage")).append
    (contributes_shellBlock useLine)).append (contributes_optional tool.root.details)
  have flags := contributes_flagPart "### Global Flags" tool.root.flags
  exact ((called _).append flags).append (contributes_paragraph "## Commands")

/-- The lines of the documentation of a tool, but for blank ones and for blanks at their ends. They
are those of the opening and of one section for each command that is visible and that no hidden
command stands above, the root apart. The sections stand in the order of the keys that lead to
their commands. -/
theorem markdown_covers (tool : ToolDecl) (ordered : tool.tree.Ordered) :
    ∃ entries : List Documented,
      (entries.Pairwise fun earlier later => earlier.keys < later.keys) ∧
      (∀ entry, entry ∈ entries ↔ tool.tree.Shows [] entry) ∧
      solidLines (markdown tool) = tool.openingTexts.flatMap solidLines ++
        entries.flatMap fun entry => (entry.texts tool.rootName).flatMap solidLines := by
  have sections : sectionsBelow tool.rootName 0 tool.commands =
      (documentedBelow [] tool.commands).map (Documented.sectionText tool.rootName) :=
    sectionsBelow_eq_map fun entry _ name => commandSections_eq_map _ entry.2 [] name
  refine ⟨documentedBelow [] tool.commands, ?_, fun entry => ?_, ?_⟩
  · have increasing : ((placedBelow tool.rootName tool.commands).map Prod.fst).Pairwise (· < ·) :=
      List.pairwise_map.mpr (List.pairwise_cons.mp (ordered.increasing tool.rootName)).2
    exact List.pairwise_map.mp (increasing.sublist (CommandDecl.documentedBelow_sublist
      fun command _ name path => command.2.documented_sublist [] name path))
  · rw [CommandDecl.mem_documentedBelow_iff fun _ _ _ _ => CommandDecl.mem_documented_iff,
      CommandDecl.shows_iff, or_iff_right]
    · rfl
    · rintro ⟨-, named, -⟩
      exact List.append_ne_nil_of_right_ne_nil _ (List.cons_ne_nil _ _) named
  · have listed : Contributes (String.join ((documentedBelow [] tool.commands).map
        (Documented.sectionText tool.rootName)))
        ((documentedBelow [] tool.commands).flatMap (Documented.texts tool.rootName)) :=
      contributes_flatMap fun entry _ => contributes_section tool.rootName entry
    rw [markdown, solidLines_collapseBlankLines, contributes_header, sections,
      ← String.append_empty (s := String.join _), listed, List.flatMap_assoc]
    simp

/-- A command that is called by its key. -/
def depotLabel : CommandDecl := { useLine := "", summary := "Label a crate\nand book it" }

/-- A tool with a command below another, and a hidden command that has one below it. -/
def depotTool : ToolDecl where
  name := "depot"
  root := { useLine := "depot", summary := "Keep a depot" }
  commands := [
    ("a", {
      useLine := "store <crate>"
      summary := "Store a crate"
      aliases := ["put"]
      args := some (.exactly 1)
      commands := [("label", depotLabel)] }),
    ("b", {
      useLine := "audit"
      summary := "Audit the books"
      hidden := true
      commands := [("now", { useLine := "now", summary := "Audit at once" })] })]

theorem markdown_covers_depot :
    depotTool.tree.Ordered ∧ ∃ entries : List Documented,
      ⟨["a", "label"], ["store"], "label", depotLabel.toCommandFields⟩ ∈ entries ∧
      (∀ entry ∈ entries, entry.keys.head? = some "a") ∧
      solidLines (markdown depotTool) = depotTool.openingTexts.flatMap solidLines ++
        entries.flatMap fun entry => (entry.texts "depot").flatMap solidLines := by
  have ordered : depotTool.tree.Ordered := by
    refine CommandDecl.ordered_iff.mpr ⟨?_, ?_⟩
    · have keys : (["a", "b"] : List String).Pairwise (· < ·) := by decide
      exact keys
    · simp [depotTool, depotLabel, Keyed.Sorted, Keyed.keys]
  obtain ⟨entries, -, covered, lines⟩ := markdown_covers depotTool ordered
  refine ⟨ordered, entries, ?_, fun entry mem => ?_, lines⟩
  · rw [covered, CommandDecl.shows_iff]
    refine .inr ⟨"a", _, List.mem_cons_self, rfl, ⟨["label"], ["store"], "label", _⟩, rfl, ?_⟩
    rw [CommandDecl.shows_iff]
    exact .inr ⟨"label", depotLabel, List.mem_cons_self, rfl, ⟨[], ["store"], "label", _⟩, rfl,
      CommandDecl.shows_iff.mpr (.inl ⟨rfl, rfl, rfl⟩)⟩
  · rw [covered, CommandDecl.shows_iff] at mem
    rcases mem with ⟨-, named, -⟩ | ⟨key, child, among, shown, below, rfl, -⟩
    · exact absurd named (List.append_ne_nil_of_right_ne_nil _ (List.cons_ne_nil _ _))
    · rcases List.mem_pair.mp among with same | same
      · rw [(Prod.mk.inj same).1]
        rfl
      · -- the other command of the root is hidden
        rw [(Prod.mk.inj same).2] at shown
        cases shown

end ToolTree
