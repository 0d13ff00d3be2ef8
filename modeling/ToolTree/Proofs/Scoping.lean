import ToolTree.Proofs.Standing

/-!
What each command of a built tree has in sight.

The node of a command knows the flags declared on it and the persistent ones from above, each with
its type, and asks for the persistent required ones (`scope_of_build`). Its view has an argument for
each of these flags and a few that stand for none, and nothing in it is ambiguous: neither a name
nor a letter nor the word for a command below has two meanings (`unambiguous_of_build`).
-/

namespace ToolTree

open CommandLine (Argument Grammar View)

/-! ### Flags on a node -/

theorem requiredNames_eq_flatMap (commands : List CommandFields) :
    requiredNames commands = commands.flatMap fun command =>
      (command.flags.filter fun flag => flag.persistent && flag.required).map FlagDecl.name := by
  rw [requiredNames, persistentFlags, List.filter_flatMap, List.map_flatMap]
  simp only [List.filter_filter, Bool.and_comm]

/-- What a node of a built tree knows is what the declaration puts in sight of its command: the
command's own flags and the persistent ones of the commands above it, each under its name with its
type; of these, the persistent ones that are required, those from above first; and the rule on
words and the function of the command itself. -/
theorem scope_of_build {tool : ToolDecl} {registry : Registry} {tree : Tree}
    (built : (tool.build registry).result = .ok tree) {above : List CommandFields}
    {names : List String} {c : CommandDecl} (leads : tool.tree.Leads above names c) :
    ∃ node, tree.root.follow? names = some node ∧
      (Keyed.keys node.flags).Nodup ∧
      (∀ name kind, (name, kind) ∈ node.flags ↔ ∃ flag : FlagDecl,
        (flag ∈ c.flags ∨ ∃ upper ∈ above, flag ∈ upper.flags ∧ flag.persistent = true) ∧
        flag.name = name ∧ flag.kind = kind.spelling) ∧
      (node.requiredFlags = (above ++ [c.toCommandFields]).flatMap fun command =>
        (command.flags.filter fun flag => flag.persistent && flag.required).map FlagDecl.name) ∧
      c.arity = .ok node.arity ∧
      ((c.handler = "" ∧ node.binding? = none) ∨
        (c.handler ≠ "" ∧ ∃ handler, registry.get? c.handler = some handler ∧
          node.binding? = some ⟨c.handler, handler⟩)) := by
  obtain ⟨view, node, follows, stands⟩ := (stands_root built).follow leads
  have distinct := stands.agrees.sortedFlags.nodup
  refine ⟨node, follows, distinct, fun name kind => ?_, ?_, stands.agrees.arity, stands.binding⟩
  · rw [← Keyed.find?_eq_some_iff_mem distinct, stands.agrees.flags]
    refine exists_congr fun flag => ?_
    rw [visibleFlags, List.mem_append, mem_persistentFlags_iff, FlagDecl.flagKind_eq_ok_iff,
      List.nil_append, or_comm]
  · rw [stands.agrees.requiredFlags, requiredNames_eq_flatMap]
    rfl

/-- A command with a flag of its own and one for the commands below it. -/
def upCommand : CommandDecl where
  useLine := "up <name>"
  aliases := ["start"]
  summary := "Start one"
  args := some (.exactly 1)
  handler := "up"
  flags := [
    { FlagDecl.ofKind "verbose" .int "How loud" with shorthand := "V" },
    { FlagDecl.ofKind "force" .bool "Do it" with required := true, persistent := true }]

/-- A command with one called `help` below it and a persistent flag of that name. -/
def envCommand : CommandDecl where
  useLine := "env"
  aliases := ["e"]
  summary := "Environments"
  flags := [{ FlagDecl.ofKind "help" .string "Where to ask" with persistent := true }]
  commands := [
    ("help", { useLine := "help <topic>", summary := "Tell of a topic" }),
    ("up", upCommand)]

/-- A tool whose flags take the letters that are given to help and the version. -/
def labTool : ToolDecl where
  name := "lab"
  version := "1.0"
  root := {
    useLine := "lab"
    summary := "Run a lab"
    flags := [
      { FlagDecl.ofKind "token" .string "Who" with
        shorthand := "h", required := true, persistent := true },
      { FlagDecl.ofKind "verbose" .bool "Say more" with shorthand := "V" }] }
  commands := [("env", envCommand)]

/-- A function for `up`. -/
def labRegistry : Registry :=
  .ofList [("up", .handler fun _ _ => .ok ())]

theorem scope_of_build_lab :
    ∃ tree node, (labTool.build labRegistry).result = .ok tree ∧
      tree.root.follow? ["env", "up"] = some node ∧
      ("help", FlagKind.string) ∈ node.flags ∧ ("verbose", FlagKind.int) ∈ node.flags ∧
      ("verbose", FlagKind.bool) ∉ node.flags ∧ node.requiredFlags = ["token", "force"] := by
  have accepted : (labTool.build labRegistry).result.isOk = true := by rfl
  cases built : (labTool.build labRegistry).result with
  | error cause =>
    rw [built] at accepted
    cases accepted
  | ok tree =>
    have leads : labTool.tree.Leads [labTool.root.toCommandFields, envCommand.toCommandFields]
        ["env", "up"] upCommand := by
      have env : ("env", envCommand) ∈ labTool.tree.commands := .head _
      have up : ("up", upCommand) ∈ envCommand.commands := .tail _ (.head _)
      exact .down env (.down up (.here upCommand))
    obtain ⟨node, follows, distinct, known, required, -⟩ := scope_of_build built leads
    have asks : ("help", FlagKind.string) ∈ node.flags :=
      (known _ _).mpr ⟨_, .inr ⟨_, .tail _ (.head _), .head _, rfl⟩, rfl, rfl⟩
    have loud : ("verbose", FlagKind.int) ∈ node.flags :=
      (known _ _).mpr ⟨_, .inl (.head _), rfl, rfl⟩
    refine ⟨tree, node, rfl, follows, asks, loud, fun other => ?_, required⟩
    have found := (Keyed.find?_eq_some_iff_mem distinct).mpr loud
    rw [(Keyed.find?_eq_some_iff_mem distinct).mpr other] at found
    cases found

/-! ### No ambiguity -/

/-- A view in which nothing has two meanings: the arguments differ in their names and in their
letters, those that a line gives by name among them; all that is persistent is handed down to each
command below; and a word selects at most one of these, be it the automatic `help`. -/
structure CommandLine.View.Unambiguous (view : View) : Prop where
  names : (view.arguments.map Argument.name).Nodup
  longs : ((view.arguments.filter Argument.isNamed).map Argument.name).Nodup
  shorts : (view.arguments.filterMap Argument.short?).Nodup
  handsDown : ∀ child ∈ view.grammar.subcommands,
    (view.child child).arguments = child.arguments ++ view.arguments.filter Argument.persistent
  words : (view.grammar.subcommands.flatMap fun child => child.name :: child.aliases).Nodup
  selects : ∀ child ∈ view.grammar.subcommands, ∀ word, child.isCalled word = true →
    view.grammar.subcommand? word = some child
  help : view.grammar.helpCommand = true →
    ∀ child ∈ view.grammar.subcommands, child.isCalled CommandLine.helpName = false

namespace Stands

variable {registry : Registry} {above : List CommandFields} {path : String} {c : CommandDecl}
  {view : View} {node : Node}

/-- Up to order, the arguments in sight are those of the flags in sight and some that stand for
no flag. -/
theorem arguments_perm (h : Stands registry above path c view node) :
    ∃ flags yielded others, flags.Perm (visibleFlags above c.toCommandFields) ∧
      List.Forall₂ FlagDecl.Yields flags yielded ∧
      Extras (visibleFlags above c.toCommandFields) others ∧
      view.arguments.Perm (yielded ++ others) := by
  obtain ⟨own, others, upper, split, yields, extras, handed⟩ := h.arguments
  refine ⟨persistentFlags above.reverse ++ c.flags, upper ++ own, others, ?_,
    List.rel_append handed yields, extras, ?_⟩
  · exact ((List.reverse_perm above).flatMap_right _).append_right c.flags
  · rw [split, List.append_assoc upper]
    exact List.perm_append_comm

theorem names_nodup (h : Stands registry above path c view node) :
    (view.arguments.map Argument.name).Nodup := by
  obtain ⟨flags, yielded, others, same, yields, extras, perm⟩ := h.arguments_perm
  have distinct : (flags.map FlagDecl.name).Nodup :=
    (same.map _).nodup_iff.mpr h.visible_apart.names
  rw [(perm.map _).nodup_iff, List.map_append, names_of_yields yields, List.nodup_append']
  refine ⟨distinct, extras.names, fun name declared extra => ?_⟩
  obtain ⟨flag, mem, rfl⟩ := List.mem_map.mp declared
  obtain ⟨arg, mem', taken⟩ := List.mem_map.mp extra
  exact (extras.each arg mem').nameFree flag (same.subset mem) taken.symm

theorem shorts_nodup (h : Stands registry above path c view node) :
    (view.arguments.filterMap Argument.short?).Nodup := by
  obtain ⟨flags, yielded, others, same, yields, extras, perm⟩ := h.arguments_perm
  have distinct : (flags.filterMap FlagDecl.shortChar?).Nodup :=
    (same.filterMap _).nodup_iff.mpr h.visible_apart.shorts
  rw [(perm.filterMap _).nodup_iff, List.filterMap_append, shorts_of_yields yields,
    List.nodup_append']
  refine ⟨distinct, extras.shorts, fun short declared extra => ?_⟩
  obtain ⟨flag, mem, spelt⟩ := List.mem_filterMap.mp declared
  obtain ⟨arg, mem', taken⟩ := List.mem_filterMap.mp extra
  exact (extras.each arg mem').shortFree short taken flag (same.subset mem) spelt

/-- While the automatic `help` command may stand, no command is called like it. -/
theorem help_free (h : Stands registry above path c view node)
    (enabled : view.grammar.helpCommand = true) {child : Grammar}
    (mem : child ∈ view.grammar.subcommands) : child.isCalled CommandLine.helpName = false := by
  have free := h.helpCommand.mp enabled
  obtain ⟨⟨key, d⟩, entry, ⟨named, aliased⟩, -⟩ := h.entry_of_command mem
  rw [← Bool.not_eq_true, Grammar.isCalled_iff, named, aliased]
  intro called
  rcases List.mem_cons.mp called with same | aliased
  · refine free (List.mem_append_left _ ?_)
    rw [same]
    exact List.mem_map_of_mem entry
  · exact free (List.mem_append_right _ (List.mem_flatMap.mpr ⟨_, entry, aliased⟩))

theorem unambiguous (h : Stands registry above path c view node) : view.Unambiguous where
  names := h.names_nodup
  longs := h.names_nodup.sublist ((List.filter_sublist).map _)
  shorts := h.shorts_nodup
  handsDown := by
    intro child mem
    obtain ⟨entry, -, -, childNode, -, stands⟩ := h.entry_of_command mem
    exact congrArg (child.arguments ++ ·) (h.inherited_eq stands.fits stands.agrees)
  words := h.words_nodup
  selects := fun child mem word called => h.subcommand?_of_isCalled mem called
  help := fun enabled child mem => h.help_free enabled mem

end Stands

/-- Nothing is ambiguous on any command of a built tree, whatever its flags and those above it are
called: each flag in sight has an argument, and these, the ones that show help and the version and
the one that takes the words differ from each other; no persistent argument from above is left out;
and no word for a command below has two meanings. -/
theorem unambiguous_of_build {tool : ToolDecl} {registry : Registry} {tree : Tree}
    (built : (tool.build registry).result = .ok tree) {above : List CommandFields}
    {names : List String} {c : CommandDecl} (leads : tool.tree.Leads above names c) :
    ∃ view, (View.ofRoot tree.grammar).follow? names = some view ∧ view.Unambiguous ∧
      ∀ flag ∈ visibleFlags above c.toCommandFields, ∃ arg ∈ view.arguments, flag.Yields arg := by
  obtain ⟨view, node, selects, -, stands⟩ := (stands_root built).follow_both leads
  exact ⟨view, selects, stands.unambiguous, fun flag seen => stands.argument_of_visible seen⟩

theorem unambiguous_of_build_lab :
    ∃ tree view, (labTool.build labRegistry).result = .ok tree ∧
      (View.ofRoot tree.grammar).follow? ["env"] = some view ∧ view.Unambiguous := by
  have accepted : (labTool.build labRegistry).result.isOk = true := by rfl
  cases built : (labTool.build labRegistry).result with
  | error cause =>
    rw [built] at accepted
    cases accepted
  | ok tree =>
    have leads : labTool.tree.Leads [labTool.root.toCommandFields] ["env"] envCommand := by
      have env : ("env", envCommand) ∈ labTool.tree.commands := .head _
      exact .down env (.here envCommand)
    obtain ⟨view, selects, unambiguous, -⟩ := unambiguous_of_build built leads
    exact ⟨tree, view, rfl, selects, unambiguous⟩

end ToolTree
