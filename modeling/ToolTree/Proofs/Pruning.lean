import ToolTree.Docs.Markdown
import ToolTree.Proofs.Lineage

/-!
What is hidden, in the documentation.

`ToolDecl.pruned` takes every hidden command out of a tool, with all that stands below it, and every
hidden flag. The commands it leaves are those that no hidden command stands on the way to
(`leads_pruned_iff`). Each part of the documentation is the same text for the pruned tool: the
header, which looks for a visible command, the tables, and the sections. So nothing that is hidden
shows in it (`hidden_undocumented`).
-/

namespace ToolTree

open Docs

/-! ### Without what is hidden -/

/-- What a command says of itself, without its hidden flags. -/
def CommandFields.pruned (command : CommandFields) : CommandFields :=
  { command with flags := command.flags.filter (!·.hidden) }

mutual

/-- A command without its hidden flags and without the hidden commands below it. -/
def CommandDecl.pruned : CommandDecl → CommandDecl
  | ⟨fields, commands⟩ => ⟨fields.pruned, prunedBelow commands⟩

/-- The commands of a map that are not hidden, each without what is hidden in it. -/
def prunedBelow : List (String × CommandDecl) → List (String × CommandDecl)
  | [] => []
  | (key, command) :: rest =>
    if command.hidden then prunedBelow rest else (key, command.pruned) :: prunedBelow rest

end

/-- A tool without its hidden commands and flags. Its root stays, hidden or not. -/
def ToolDecl.pruned (tool : ToolDecl) : ToolDecl :=
  { tool with root := tool.root.pruned, commands := prunedBelow tool.commands }

@[simp] theorem CommandDecl.toCommandFields_pruned (c : CommandDecl) :
    c.pruned.toCommandFields = c.toCommandFields.pruned := by
  obtain ⟨fields, commands⟩ := c
  rw [CommandDecl.pruned]

@[simp] theorem CommandDecl.commands_pruned (c : CommandDecl) :
    c.pruned.commands = prunedBelow c.commands := by
  obtain ⟨fields, commands⟩ := c
  rw [CommandDecl.pruned]

theorem ToolDecl.tree_pruned (tool : ToolDecl) : tool.pruned.tree = tool.tree.pruned := by
  simp [tree, pruned, CommandDecl.pruned]

/-- Pruning keeps the name of a command. -/
theorem CommandDecl.nameOr_pruned (c : CommandDecl) (key : String) :
    c.pruned.nameOr key = c.nameOr key := by
  rw [toCommandFields_pruned]
  rfl

theorem mem_prunedBelow_iff {commands : List (String × CommandDecl)} {key : String}
    {pruned : CommandDecl} :
    (key, pruned) ∈ prunedBelow commands ↔
      ∃ c, (key, c) ∈ commands ∧ c.hidden = false ∧ c.pruned = pruned := by
  induction commands with
  | nil => simp [prunedBelow]
  | cons entry rest ih =>
    obtain ⟨k, command⟩ := entry
    rw [prunedBelow]
    by_cases hidden : command.hidden
    · rw [if_pos hidden, ih]
      constructor
      · rintro ⟨c, mem, shown, same⟩
        exact ⟨c, List.mem_cons_of_mem _ mem, shown, same⟩
      · rintro ⟨c, mem, shown, same⟩
        rcases List.mem_cons.mp mem with first | mem
        · obtain ⟨rfl, rfl⟩ := Prod.mk.inj first
          rw [hidden] at shown
          cases shown
        · exact ⟨c, mem, shown, same⟩
    · rw [if_neg hidden, List.mem_cons, ih]
      constructor
      · rintro (first | ⟨c, mem, shown, same⟩)
        · obtain ⟨rfl, rfl⟩ := Prod.mk.inj first
          exact ⟨command, List.mem_cons_self, eq_false_of_ne_true hidden, rfl⟩
        · exact ⟨c, List.mem_cons_of_mem _ mem, shown, same⟩
      · rintro ⟨c, mem, shown, same⟩
        rcases List.mem_cons.mp mem with first | mem
        · obtain ⟨rfl, rfl⟩ := Prod.mk.inj first
          exact .inl (by rw [same])
        · exact .inr ⟨c, mem, shown, same⟩

namespace CommandDecl

/-- `LeadsShown c names d`: the names lead from `c` down to `d`, and neither `d` nor a command on
the way is hidden, `c` apart. -/
inductive LeadsShown : CommandDecl → List String → CommandDecl → Prop where
  | here (c : CommandDecl) : LeadsShown c [] c
  | down {c : CommandDecl} {key : String} {child : CommandDecl} {names : List String}
      {d : CommandDecl} :
      (key, child) ∈ c.commands → child.hidden = false → LeadsShown child names d →
      LeadsShown c (child.nameOr key :: names) d

/-- The commands that pruning leaves are those that no hidden command stands on the way to. -/
theorem leads_pruned_iff {c d' : CommandDecl} {names : List String} :
    (∃ above, c.pruned.Leads above names d') ↔ ∃ d, c.LeadsShown names d ∧ d.pruned = d' := by
  constructor
  · rintro ⟨above, leads⟩
    generalize start : c.pruned = c' at leads
    induction leads generalizing c with
    | here => exact ⟨c, .here c, start⟩
    | @down c' key child' above names d' entry leads ih =>
      subst start
      rw [commands_pruned, mem_prunedBelow_iff] at entry
      obtain ⟨child, mem, shown, same⟩ := entry
      obtain ⟨d, shownLeads, same'⟩ := ih same
      subst same
      rw [nameOr_pruned]
      exact ⟨d, .down mem shown shownLeads, same'⟩
  · rintro ⟨d, leads, rfl⟩
    induction leads with
    | here c => exact ⟨[], .here c.pruned⟩
    | @down c key child names d mem shown leads ih =>
      obtain ⟨above, leads⟩ := ih
      have entry : (key, child.pruned) ∈ c.pruned.commands := by
        rw [commands_pruned, mem_prunedBelow_iff]
        exact ⟨child, mem, shown, rfl⟩
      rw [← nameOr_pruned child key]
      exact ⟨_, .down entry leads⟩

end CommandDecl

/-! ### The documentation of what is left -/

/-- A table that leaves out the hidden flags has nothing left to leave out. -/
theorem visibleFlags_pruned (command : CommandFields) :
    visibleFlags command.pruned.flags = visibleFlags command.flags := by
  simp [visibleFlags, CommandFields.pruned]

theorem section_pruned (command : CommandFields) (name parent : String) (depth : Nat) :
    section_ command.pruned name parent depth = section_ command name parent depth := by
  unfold section_
  rw [visibleFlags_pruned]
  rfl

/-- The sections below a path look at no hidden command. -/
theorem sectionsBelow_pruned {commands : List (String × CommandDecl)}
    (each : ∀ entry ∈ commands, ∀ name parent depth,
      commandSections name parent depth entry.2.pruned =
        commandSections name parent depth entry.2) (parent : String) (depth : Nat) :
    sectionsBelow parent depth (prunedBelow commands) = sectionsBelow parent depth commands := by
  induction commands with
  | nil => rfl
  | cons entry rest ih =>
    obtain ⟨key, command⟩ := entry
    obtain ⟨first, others⟩ := List.forall_mem_cons.mp each
    by_cases hidden : command.hidden
    · rw [prunedBelow, if_pos hidden, ih others, sectionsBelow, if_pos hidden, List.nil_append]
    · have shown : ¬command.pruned.hidden := by
        rw [CommandDecl.toCommandFields_pruned]
        exact hidden
      rw [prunedBelow, if_neg hidden, sectionsBelow, sectionsBelow, if_neg hidden, if_neg shown,
        ih others, CommandDecl.nameOr_pruned, first]

theorem commandSections_pruned (c : CommandDecl) (name parent : String) (depth : Nat) :
    commandSections name parent depth c.pruned = commandSections name parent depth c := by
  induction c using CommandDecl.induction generalizing name parent depth with
  | step fields commands ih =>
    rw [CommandDecl.pruned, commandSections, commandSections, section_pruned,
      sectionsBelow_pruned ih]

/-- The header shows the mark for commands just when one is left. -/
theorem all_hidden_pruned (commands : List (String × CommandDecl)) :
    ((prunedBelow commands).all fun (_, command) => command.hidden) =
      commands.all fun (_, command) => command.hidden := by
  induction commands with
  | nil => rfl
  | cons entry rest ih =>
    obtain ⟨key, command⟩ := entry
    by_cases hidden : command.hidden
    · rw [prunedBelow, if_pos hidden, ih]
      simp only [List.all_cons, hidden, Bool.true_and]
    · rw [prunedBelow, if_neg hidden]
      simp only [List.all_cons, CommandDecl.toCommandFields_pruned, CommandFields.pruned,
        eq_false_of_ne_true hidden, Bool.false_and]

theorem header_pruned (tool : ToolDecl) : header tool.pruned = header tool := by
  unfold header
  rw [show tool.pruned.commands = prunedBelow tool.commands from rfl, all_hidden_pruned,
    show tool.pruned.root = tool.root.pruned from rfl, CommandDecl.toCommandFields_pruned,
    visibleFlags_pruned]
  rfl

/-- Hidden commands, with all that stands below them, and hidden flags leave no trace in the
documentation: it is that of the tool without them, whose commands are those that no hidden command
stands on the way to, none of them with a hidden flag. -/
theorem hidden_undocumented (tool : ToolDecl) :
    markdown tool.pruned = markdown tool ∧
      markdownEvents tool.pruned = markdownEvents tool ∧
      (∀ names d', (∃ above, tool.pruned.tree.Leads above names d') ↔
        ∃ d, tool.tree.LeadsShown names d ∧ d.pruned = d') ∧
      ∀ above names d, tool.pruned.tree.Leads above names d →
        ∀ flag ∈ d.flags, flag.hidden = false := by
  have text : markdown tool.pruned = markdown tool := by
    have name : tool.pruned.rootName = tool.rootName :=
      CommandDecl.nameOr_pruned tool.root tool.name
    unfold markdown
    rw [header_pruned, name]
    exact congrArg (fun sections => collapseBlankLines (header tool ++ String.join sections))
      (sectionsBelow_pruned (fun entry _ => commandSections_pruned entry.2) _ _)
  refine ⟨text, ?_, ?_, ?_⟩
  · unfold markdownEvents
    rw [text]
    rfl
  · intro names d'
    rw [ToolDecl.tree_pruned]
    exact CommandDecl.leads_pruned_iff
  · intro above names d leads flag mem
    rw [ToolDecl.tree_pruned] at leads
    obtain ⟨e, -, rfl⟩ := CommandDecl.leads_pruned_iff.mp ⟨above, leads⟩
    rw [CommandDecl.toCommandFields_pruned] at mem
    simpa using (List.mem_filter.mp mem).2

end ToolTree
