import Mathlib.Data.List.Pairwise
import Mathlib.Data.List.Perm.Basic
import ToolTree.Proofs.Arguments
import ToolTree.Tree.Dispatch

/-!
The two sides of a built tree, and the declaration that both come from.

`Agrees` says what the grammar and the node of a command hold of its declaration. `Stands` ties a
declared command to the view that a line meets and to the node that says what it does, the
commands below included. The root of a built tree stands so (`stands_root`), and each command
below one that stands does too, its view right below and its node under its name
(`Stands.commands`). So whatever names lead to in the declaration, they lead to in the tree
(`Stands.follow`).
-/

namespace ToolTree

open CommandLine (Argument Grammar Head View)

/-! ### Commands side by side -/

section Assembled

variable {below : List (Grammar × Node)} {acc : List (String × Node)}

theorem sorted_assembled (sorted : Keyed.Sorted acc) :
    Keyed.Sorted (below.foldl (fun acc (grammar, node) =>
      Keyed.insert grammar.name node acc) acc) := by
  induction below generalizing acc with
  | nil => exact sorted
  | cons built rest ih => exact ih (sorted.insert built.1.name built.2)

/-- When names are distinct, none of the nodes side by side replaces another. -/
theorem perm_assembled (distinct : (below.map fun built => built.1.name).Nodup)
    (fresh : ∀ built ∈ below, built.1.name ∉ Keyed.keys acc) :
    (below.foldl (fun acc (grammar, node) => Keyed.insert grammar.name node acc) acc).Perm
      (below.map (fun built => (built.1.name, built.2)) ++ acc) := by
  induction below generalizing acc with
  | nil => exact .refl _
  | cons built rest ih =>
    rw [List.map_cons, List.nodup_cons] at distinct
    rw [List.forall_mem_cons] at fresh
    have freshRest : ∀ other ∈ rest,
        other.1.name ∉ Keyed.keys (Keyed.insert built.1.name built.2 acc) := by
      intro other mem
      rw [Keyed.mem_keys_insert, not_or]
      exact ⟨fun same => distinct.1 (same ▸ List.mem_map_of_mem mem), fresh.2 other mem⟩
    have added := Keyed.perm_insert fresh.1 built.2
    exact (ih distinct.2 freshRest).trans ((added.append_left _).trans List.perm_middle)

end Assembled

theorem name_of_buildNode {registry : Registry} {inherited : Scope} {name path : String}
    {version? : Option String} {c : CommandDecl} {built : Grammar × Node}
    (ok : buildNode registry inherited name path version? c = .ok built) :
    built.1.name = name ∧ built.1.aliases = c.aliases := by
  obtain ⟨own, owned, below, -, rfl⟩ := buildNode_eq_ok_iff.mp ok
  obtain ⟨arity, -, flags, -, binding?, -, -, rfl⟩ := buildOwn_eq_ok_iff.mp owned
  exact ⟨rfl, rfl⟩

theorem names_of_buildsBelow {registry : Registry} {inherited : Scope} {parent : String}
    {commands : List (String × CommandDecl)} {below : List (Grammar × Node)}
    (all : List.Forall₂ (BuildsBelow registry inherited parent) commands below) :
    below.map (fun built => built.1.name) = siblingNames commands :=
  (map_eq_of_forall₂ all fun _ _ _ ok => (name_of_buildNode ok).1.symm).symm

/-! ### One command -/

/-- The head of a grammar and a node that were made of a declared command below some others. -/
structure Agrees (registry : Registry) (above : List CommandFields) (path : String)
    (command : CommandFields) (head : Head) (node : NodeFields) : Prop where
  path_eq : node.path = path
  arity : command.arity = .ok node.arity
  binding : command.binding? registry path node.arity = .ok node.binding?
  flags : ∀ name kind, Keyed.find? name node.flags = some kind ↔
    ∃ flag ∈ visibleFlags above command, flag.name = name ∧ flag.flagKind = .ok kind
  sortedFlags : Keyed.Sorted node.flags
  requiredFlags : node.requiredFlags = requiredNames (above ++ [command])
  arguments : ∃ own others, head.arguments = own ++ others ∧
    List.Forall₂ FlagDecl.Yields command.flags own ∧ Extras (visibleFlags above command) others

theorem agrees_of_buildOwn {registry : Registry} {inherited : Scope} {above : List CommandFields}
    (inherits : inherited.Inherits above) {command : CommandFields} (wf : command.WellFormed)
    {name path : String} {version? : Option String} {commands : List (String × CommandDecl)}
    {own : Built}
    (ok : (buildOwn registry command name path inherited version? commands).result = .ok own) :
    Agrees registry above path command own.head own.node := by
  obtain ⟨arity, resolved, flags, taken, binding?, bound, -, rfl⟩ := buildOwn_eq_ok_iff.mp ok
  have known := inherits.after wf taken
  have seenWf := inherits.flags_wellFormed wf
  have fits := (Flags.isOk_ofDecls_iff inherits.holds seenWf).mp ⟨flags, taken⟩
  have unreserved : ∀ flag ∈ visibleFlags above command, flag.name ≠ wordsName := by
    intro flag mem
    rcases List.mem_append.mp mem with upper | own
    · exact inherits.unreserved flag upper
    · exact (fits.1 flag own).unreserved
  obtain ⟨others, split, extras⟩ := extras_of_commandArguments known.visible seenWf unreserved
    command arity version?.isSome
  exact {
    path_eq := rfl
    arity := resolved
    binding := bound
    flags := known.visible.names
    sortedFlags := known.visible.sorted
    requiredFlags := (inherits.handedDown wf taken).required
    arguments := ⟨flags.arguments, others, split, known.arguments, extras⟩ }

/-- A declared command below some others, as a line meets it and as it was built. What the view
sees besides the arguments of its own grammar are the persistent flags from above, those of the
nearest command first. -/
structure Stands (registry : Registry) (above : List CommandFields) (path : String)
    (c : CommandDecl) (view : View) (node : Node) : Prop where
  wellFormed : c.WellFormed
  fits : c.Fits registry above
  agrees : Agrees registry above path c.toCommandFields view.grammar.toHead node.toNodeFields
  handed : ∃ upper, view.arguments = view.grammar.arguments ++ upper ∧
    List.Forall₂ FlagDecl.Yields (persistentFlags above.reverse) upper
  helpCommand : view.grammar.helpCommand = true ↔
    CommandLine.helpName ∉ siblingNames c.commands ++ siblingAliases c.commands
  below : ∃ inheritable below, inheritable.Inherits (above ++ [c.toCommandFields]) ∧
    List.Forall₂ (BuildsBelow registry inheritable path) c.commands below ∧
    view.grammar.subcommands = below.map Prod.fst ∧
    node.children = below.foldl (fun acc (grammar, node) =>
      Keyed.insert grammar.name node acc) []

section Built

variable {registry : Registry} {inherited : Scope} {above : List CommandFields}
  {name path : String} {version? : Option String} {c : CommandDecl}

theorem agrees_of_buildNode (inherits : inherited.Inherits above)
    (wf : c.toCommandFields.WellFormed) {grammar : Grammar} {node : Node}
    (ok : buildNode registry inherited name path version? c = .ok (grammar, node)) :
    c.Fits registry above ∧
      Agrees registry above path c.toCommandFields grammar.toHead node.toNodeFields := by
  obtain ⟨built, owned, below, -, same⟩ := buildNode_eq_ok_iff.mp ok
  obtain ⟨rfl, rfl⟩ := Prod.mk.inj same
  exact ⟨(isOk_buildOwn_iff inherits wf).mp ⟨built, owned⟩, agrees_of_buildOwn inherits wf owned⟩

theorem stands_of_buildNode (inherits : inherited.Inherits above) (wf : c.WellFormed)
    {view : View} {node : Node}
    (ok : buildNode registry inherited name path version? c = .ok (view.grammar, node))
    (handed : ∃ upper, view.arguments = view.grammar.arguments ++ upper ∧
      List.Forall₂ FlagDecl.Yields (persistentFlags above.reverse) upper) :
    Stands registry above path c view node := by
  have own := (wf [] [] c (.here c)).1
  obtain ⟨fits, agrees⟩ := agrees_of_buildNode inherits own ok
  obtain ⟨built, owned, below, all, same⟩ := buildNode_eq_ok_iff.mp ok
  obtain ⟨grammarEq, rfl⟩ := Prod.mk.inj same
  have helpCommand : built.head.helpCommand = true ↔
      CommandLine.helpName ∉ siblingNames c.commands ++ siblingAliases c.commands := by
    obtain ⟨arity, -, flags, -, binding?, -, -, rfl⟩ := buildOwn_eq_ok_iff.mp owned
    simp [ownParts]
  exact {
    wellFormed := wf
    fits
    agrees
    handed
    helpCommand := by rw [grammarEq]; exact helpCommand
    below := ⟨built.inheritable, below, inherits.inheritable own owned,
      buildBelow_eq_ok_iff.mp all, by rw [grammarEq], rfl⟩ }

end Built

/-- The root of a built tree stands for the root of the tool. -/
theorem stands_root {tool : ToolDecl} {registry : Registry} {tree : Tree}
    (built : (tool.build registry).result = .ok tree) :
    Stands registry [] tool.rootName tool.tree (.ofRoot tree.grammar) tree.root := by
  obtain ⟨wf, ok⟩ := build_eq_ok_iff.mp built
  exact stands_of_buildNode Scope.Inherits.empty wf.commands ok
    ⟨[], by simp [View.ofRoot], .nil⟩

/-! ### The arguments in sight -/

namespace Stands

variable {registry : Registry} {above : List CommandFields} {path : String} {c : CommandDecl}
  {view : View} {node : Node}

theorem way_wellFormed (h : Stands registry above path c view node) :
    ∀ command ∈ above ++ [c.toCommandFields], command.WellFormed := by
  obtain ⟨inheritable, -, inherits, -⟩ := h.below
  exact inherits.wellFormed

theorem visible_wellFormed (h : Stands registry above path c view node) :
    ∀ flag ∈ visibleFlags above c.toCommandFields, flag.WellFormed := by
  intro flag seen
  obtain ⟨declaring, mem, declared⟩ := exists_declaring_of_visible seen
  exact (h.way_wellFormed declaring mem).flags flag declared

theorem visible_apart (h : Stands registry above path c view node) :
    FlagsApart (visibleFlags above c.toCommandFields) := by
  obtain ⟨inheritable, -, inherits, -⟩ := h.below
  have apart := inherits.apart
  rw [persistentFlags_append] at apart
  exact h.fits.flags.apart (List.pairwise_append.mp apart).1

/-- No two flags in sight share their name. -/
theorem eq_of_name_eq (h : Stands registry above path c view node) {flag other : FlagDecl}
    (mem : flag ∈ visibleFlags above c.toCommandFields)
    (mem' : other ∈ visibleFlags above c.toCommandFields) (same : flag.name = other.name) :
    flag = other :=
  List.inj_on_of_nodup_map h.visible_apart.names mem mem' same

/-- A flag in sight has the type that it declares. -/
theorem kindOf_of_visible (h : Stands registry above path c view node) {flag : FlagDecl}
    (seen : flag ∈ visibleFlags above c.toCommandFields) {kind : FlagKind}
    (typed : flag.flagKind = .ok kind) {chain : CommandLine.Chain} :
    (node.invocation chain).kindOf flag.name = .ok kind := by
  have found := (h.agrees.flags flag.name kind).mpr ⟨flag, seen, rfl, typed⟩
  rw [Invocation.kindOf, NodeFields.invocation, found]

/-- The arguments that a command sees: those of its own flags, those that stand for no flag, and
those of the persistent flags from above. -/
theorem arguments (h : Stands registry above path c view node) :
    ∃ own others upper, view.arguments = own ++ others ++ upper ∧
      List.Forall₂ FlagDecl.Yields c.flags own ∧
      Extras (visibleFlags above c.toCommandFields) others ∧
      List.Forall₂ FlagDecl.Yields (persistentFlags above.reverse) upper := by
  obtain ⟨upper, split, handed⟩ := h.handed
  obtain ⟨own, others, splitOwn, yields, extras⟩ := h.agrees.arguments
  exact ⟨own, others, upper, by rw [split, splitOwn], yields, extras, handed⟩

theorem mem_persistentFlags_reverse {commands : List CommandFields} {flag : FlagDecl} :
    flag ∈ persistentFlags commands.reverse ↔ flag ∈ persistentFlags commands := by
  simp only [mem_persistentFlags_iff, List.mem_reverse]

/-- An argument in sight stands for a flag in sight or for none. -/
theorem argument_cases (h : Stands registry above path c view node) {arg : Argument}
    (mem : arg ∈ view.arguments) :
    (∃ flag ∈ visibleFlags above c.toCommandFields, flag.Yields arg) ∨
      Extra (visibleFlags above c.toCommandFields) arg := by
  obtain ⟨own, others, upper, split, yields, extras, handed⟩ := h.arguments
  rw [split] at mem
  rcases List.mem_append.mp mem with mem | mem
  · rcases List.mem_append.mp mem with mem | mem
    · obtain ⟨flag, declared, yield⟩ := (exists_mem_of_forall₂ yields).2 arg mem
      exact .inl ⟨flag, List.mem_append_right _ declared, yield⟩
    · exact .inr (extras.each arg mem)
  · obtain ⟨flag, inherited, yield⟩ := (exists_mem_of_forall₂ handed).2 arg mem
    exact .inl ⟨flag, List.mem_append_left _ (mem_persistentFlags_reverse.mp inherited), yield⟩

/-- A flag in sight has its argument. -/
theorem argument_of_visible (h : Stands registry above path c view node) {flag : FlagDecl}
    (mem : flag ∈ visibleFlags above c.toCommandFields) :
    ∃ arg ∈ view.arguments, flag.Yields arg := by
  obtain ⟨own, others, upper, split, yields, -, handed⟩ := h.arguments
  rw [split]
  rcases List.mem_append.mp mem with inherited | declared
  · obtain ⟨arg, mem, yield⟩ :=
      (exists_mem_of_forall₂ handed).1 flag (mem_persistentFlags_reverse.mpr inherited)
    exact ⟨arg, List.mem_append_right _ mem, yield⟩
  · obtain ⟨arg, mem, yield⟩ := (exists_mem_of_forall₂ yields).1 flag declared
    exact ⟨arg, List.mem_append_left _ (List.mem_append_left _ mem), yield⟩

/-- An argument that is persistent stands for a persistent flag of the command or of one above
it. -/
theorem persistent_argument (h : Stands registry above path c view node) {arg : Argument}
    (mem : arg ∈ view.arguments) (persistent : arg.persistent = true) :
    ∃ flag ∈ persistentFlags (above ++ [c.toCommandFields]), flag.Yields arg := by
  rcases h.argument_cases mem with ⟨flag, seen, yield⟩ | extra
  · exact ⟨flag, mem_persistentFlags_of_visible seen (yield.persistent ▸ persistent), yield⟩
  · rw [extra.plain.2] at persistent
    cases persistent

/-- The arguments that a line has to give stand for the required flags of the command that are
not persistent. -/
theorem required_argument_iff (h : Stands registry above path c view node) {name : String} :
    (∃ arg ∈ view.arguments, arg.required = true ∧ arg.name = name) ↔
      ∃ flag ∈ c.flags, (flag.required = true ∧ flag.persistent = false) ∧ flag.name = name := by
  constructor
  · rintro ⟨arg, mem, required, rfl⟩
    rcases h.argument_cases mem with ⟨flag, seen, yield⟩ | extra
    · rw [yield.required, Bool.and_eq_true, Bool.not_eq_true'] at required
      exact ⟨flag, mem_flags_of_visible seen required.2, required, yield.name.symm⟩
    · rw [extra.plain.1] at required
      cases required
  · rintro ⟨flag, declared, ⟨required, localOnly⟩, rfl⟩
    obtain ⟨arg, mem, yield⟩ := h.argument_of_visible (List.mem_append_right _ declared)
    refine ⟨arg, mem, ?_, yield.name⟩
    rw [yield.required, required, localOnly]
    rfl

/-- What a command hands down, in order. -/
theorem persistent_arguments (h : Stands registry above path c view node) :
    List.Forall₂ FlagDecl.Yields (persistentFlags (above ++ [c.toCommandFields]).reverse)
      (view.arguments.filter Argument.persistent) := by
  obtain ⟨own, others, upper, split, yields, extras, handed⟩ := h.arguments
  have none : others.filter Argument.persistent = [] := by
    rw [List.filter_eq_nil_iff]
    intro arg mem
    rw [(extras.each arg mem).plain.2]
    exact Bool.false_ne_true
  have all : upper.filter Argument.persistent = upper := by
    rw [List.filter_eq_self]
    intro arg mem
    obtain ⟨flag, inherited, yield⟩ := (exists_mem_of_forall₂ handed).2 arg mem
    obtain ⟨-, -, -, persistent⟩ := mem_persistentFlags_iff.mp inherited
    rw [yield.persistent, persistent]
  rw [split, List.filter_append, List.filter_append, none, all, List.append_nil,
    List.reverse_concat]
  exact List.rel_append (persistent_of_yields yields) handed

end Stands

/-! ### The way down -/

theorem CommandLine.Grammar.isCalled_iff {grammar : Grammar} {word : String} :
    grammar.isCalled word = true ↔ word ∈ grammar.name :: grammar.aliases := by
  rw [isCalled, Bool.or_eq_true, beq_iff_eq, List.contains_iff_mem, List.mem_cons, eq_comm]

/-- Of some commands whose words are all distinct, a word selects at most one. -/
theorem CommandLine.Grammar.eq_of_isCalled {commands : List Grammar}
    (distinct : (commands.flatMap fun child => child.name :: child.aliases).Nodup)
    {child other : Grammar} (mem : child ∈ commands) (mem' : other ∈ commands) {word : String}
    (called : child.isCalled word = true) (called' : other.isCalled word = true) :
    child = other := by
  by_contra ne
  have apart := (List.nodup_flatMap.mp distinct).2
  have : Std.Symm (Function.onFun List.Disjoint fun child : Grammar => child.name :: child.aliases) :=
    ⟨fun _ _ disjoint _ inSecond inFirst => disjoint inFirst inSecond⟩
  exact apart.forall mem mem' ne (Grammar.isCalled_iff.mp called) (Grammar.isCalled_iff.mp called')

/-- The view that words lead to, each of them the name or an alias of a command right below. -/
def CommandLine.View.follow? (view : View) : List String → Option View
  | [] => some view
  | word :: rest =>
    match view.grammar.subcommand? word with
    | some grammar => (view.child grammar).follow? rest
    | none => none

/-- What stands right below a command: a grammar with the name and the aliases of a declared
command, whose node is kept under that name. -/
def StandsBelow (registry : Registry) (above : List CommandFields) (path : String) (view : View)
    (node : Node) (entry : String × CommandDecl) (grammar : Grammar) : Prop :=
  (grammar.name = entry.2.nameOr entry.1 ∧ grammar.aliases = entry.2.aliases) ∧
    ∃ child, Keyed.find? grammar.name node.children = some child ∧
      Stands registry above (childPath path grammar.name) entry.2 (view.child grammar) child

namespace Stands

variable {registry : Registry} {above : List CommandFields} {path : String} {c : CommandDecl}
  {view : View} {node : Node}

/-- No command below uses the name of an argument that is handed down to it. -/
theorem inherited_eq (h : Stands registry above path c view node) {d : CommandDecl}
    {path' : String} {grammar : Grammar} {fields : NodeFields}
    (fits : d.Fits registry (above ++ [c.toCommandFields]))
    (agrees : Agrees registry (above ++ [c.toCommandFields]) path' d.toCommandFields grammar.toHead
      fields) : view.inherited grammar = view.arguments.filter Argument.persistent := by
  refine List.filter_congr fun arg mem => ?_
  cases persistent : arg.persistent with
  | false => rfl
  | true =>
    rw [Bool.true_and, Bool.not_eq_true', List.any_eq_false]
    intro other own same
    rw [beq_iff_eq] at same
    obtain ⟨flag, seen, yield⟩ := h.persistent_argument mem persistent
    obtain ⟨args, others, split, yields, extras⟩ := agrees.arguments
    rw [split] at own
    rcases List.mem_append.mp own with own | extra
    · obtain ⟨later, declared, yield'⟩ := (exists_mem_of_forall₂ yields).2 other own
      refine (fits.flags.1 later declared).apart flag seen (.inl ?_)
      rw [← yield.name, ← yield'.name, same]
    · refine (extras.each other extra).nameFree flag (List.mem_append_left _ seen) ?_
      rw [same, yield.name]

theorem sorted_children (h : Stands registry above path c view node) :
    Keyed.Sorted node.children := by
  obtain ⟨inheritable, below, -, -, -, children⟩ := h.below
  rw [children]
  exact sorted_assembled .nil

theorem find?_children_iff (h : Stands registry above path c view node) {name : String}
    {child : Node} : Keyed.find? name node.children = some child ↔ (name, child) ∈ node.children :=
  Keyed.find?_eq_some_iff_mem h.sorted_children.nodup

/-- What is built right below a command: a grammar and a node for each declared command in order,
all of them kept under their names. -/
theorem built_below (h : Stands registry above path c view node) :
    ∃ below : List (Grammar × Node), view.grammar.subcommands = below.map Prod.fst ∧
      node.children.Perm (below.map fun built => (built.1.name, built.2)) ∧
      List.Forall₂ (fun entry built =>
        (built.1.name = entry.2.nameOr entry.1 ∧ built.1.aliases = entry.2.aliases) ∧
          Keyed.find? built.1.name node.children = some built.2 ∧
          Stands registry (above ++ [c.toCommandFields]) (childPath path built.1.name) entry.2
            (view.child built.1) built.2) c.commands below := by
  obtain ⟨inheritable, below, inherits, all, subcommands, children⟩ := h.below
  have distinct : (below.map fun built => built.1.name).Nodup := by
    rw [names_of_buildsBelow all]
    exact (h.wellFormed [] [] c (.here c)).2
  have fresh : ∀ built ∈ below, built.1.name ∉ Keyed.keys ([] : List (String × Node)) := by
    simp [Keyed.keys]
  have perm := perm_assembled distinct fresh
  rw [List.append_nil, ← children] at perm
  refine ⟨below, subcommands, perm, List.forall₂_iff_zip.mpr ⟨all.length_eq, ?_⟩⟩
  rintro ⟨key, child⟩ ⟨grammar, childNode⟩ mem
  have entryMem : (key, child) ∈ c.commands := List.of_mem_zip mem |>.1
  have builtMem : (grammar, childNode) ∈ below := List.of_mem_zip mem |>.2
  have ok := List.forall₂_zip all mem
  have named := name_of_buildNode ok
  refine ⟨named, ?_, ?_⟩
  · rw [h.find?_children_iff, perm.mem_iff]
    exact List.mem_map_of_mem builtMem
  · have wf : child.WellFormed := fun above names d leads =>
      h.wellFormed _ _ d (.down entryMem leads)
    have path : childPath path grammar.name = childPath path (child.nameOr key) := by
      rw [named.1]
    have own := (wf [] [] child (.here child)).1
    obtain ⟨fits, agrees⟩ := agrees_of_buildNode inherits own ok
    rw [path]
    refine stands_of_buildNode inherits wf ok ⟨view.inherited grammar, rfl, ?_⟩
    rw [h.inherited_eq fits agrees]
    exact h.persistent_arguments

/-- Below a command that stands, the declared commands stand in their order. -/
theorem commands (h : Stands registry above path c view node) :
    List.Forall₂ (StandsBelow registry (above ++ [c.toCommandFields]) path view node) c.commands
      view.grammar.subcommands := by
  obtain ⟨below, subcommands, -, all⟩ := h.built_below
  rw [subcommands, List.forall₂_map_right_iff]
  exact all.imp fun entry built ⟨named, found, stands⟩ => ⟨named, built.2, found, stands⟩

theorem command_of_entry (h : Stands registry above path c view node) {key : String}
    {child : CommandDecl} (mem : (key, child) ∈ c.commands) :
    ∃ grammar ∈ view.grammar.subcommands,
      StandsBelow registry (above ++ [c.toCommandFields]) path view node (key, child) grammar :=
  (exists_mem_of_forall₂ h.commands).1 _ mem

theorem entry_of_command (h : Stands registry above path c view node) {grammar : Grammar}
    (mem : grammar ∈ view.grammar.subcommands) :
    ∃ entry ∈ c.commands,
      StandsBelow registry (above ++ [c.toCommandFields]) path view node entry grammar :=
  (exists_mem_of_forall₂ h.commands).2 _ mem

/-- The names and aliases of the commands right below a command are all distinct. -/
theorem words_nodup (h : Stands registry above path c view node) :
    (view.grammar.subcommands.flatMap fun child => child.name :: child.aliases).Nodup := by
  have names : view.grammar.subcommands.map (·.name) = siblingNames c.commands :=
    (map_eq_of_forall₂ h.commands fun _ _ _ below => below.1.1.symm).symm
  have aliases : view.grammar.subcommands.flatMap (·.aliases) = siblingAliases c.commands := by
    rw [siblingAliases, List.flatMap_def, List.flatMap_def]
    exact congrArg _ (map_eq_of_forall₂ h.commands fun _ _ _ below => below.1.2.symm).symm
  have perm := List.map_append_flatMap_perm view.grammar.subcommands (·.name) (·.aliases)
  rw [names, aliases] at perm
  refine perm.nodup_iff.mp (List.nodup_append'.mpr ?_)
  exact ⟨(h.wellFormed [] [] c (.here c)).2, h.fits.aliases,
    fun word name taken => h.fits.aliasesFree word taken name⟩

/-- A word selects at most one of the commands right below a command. -/
theorem eq_of_isCalled (h : Stands registry above path c view node) {child other : Grammar}
    (mem : child ∈ view.grammar.subcommands) (mem' : other ∈ view.grammar.subcommands)
    {word : String} (called : child.isCalled word = true) (called' : other.isCalled word = true) :
    child = other :=
  Grammar.eq_of_isCalled h.words_nodup mem mem' called called'

/-- A word selects the command that is called by it. -/
theorem subcommand?_of_isCalled (h : Stands registry above path c view node) {child : Grammar}
    (mem : child ∈ view.grammar.subcommands) {word : String} (called : child.isCalled word = true) :
    view.grammar.subcommand? word = some child := by
  cases found : view.grammar.subcommand? word with
  | none => exact absurd called (List.find?_eq_none.mp found child mem)
  | some other =>
    have called' := List.find?_some found
    rw [h.eq_of_isCalled mem (List.mem_of_find?_eq_some found) called called']

theorem subcommand?_name (h : Stands registry above path c view node) {child : Grammar}
    (mem : child ∈ view.grammar.subcommands) :
    view.grammar.subcommand? child.name = some child :=
  h.subcommand?_of_isCalled mem (by simp [Grammar.isCalled])

/-- What names lead to in the declaration, they lead to on both sides of the tree. -/
theorem follow_both (h : Stands registry above path c view node) {between : List CommandFields}
    {names : List String} {d : CommandDecl} (leads : c.Leads between names d) :
    ∃ view' node', view.follow? names = some view' ∧ node.follow? names = some node' ∧
      Stands registry (above ++ between) (pathFrom path names) d view' node' := by
  induction leads generalizing above path view node with
  | here => exact ⟨view, node, rfl, rfl, by simpa [pathFrom] using h⟩
  | @down c key child between names d entry leads ih =>
    obtain ⟨grammar, mem, ⟨named, -⟩, childNode, found, stands⟩ := h.command_of_entry entry
    obtain ⟨view', node', selects, follows, stands'⟩ := ih stands
    have called := h.subcommand?_name mem
    rw [named] at found stands' called
    refine ⟨view', node', ?_, ?_, ?_⟩
    · rw [View.follow?, called]
      exact selects
    · rw [Node.follow?, found]
      exact follows
    · rw [List.append_assoc] at stands'
      exact stands'

/-- What names lead to in the declaration, they lead to in the tree. -/
theorem follow (h : Stands registry above path c view node) {between : List CommandFields}
    {names : List String} {d : CommandDecl} (leads : c.Leads between names d) :
    ∃ view' node', node.follow? names = some node' ∧
      Stands registry (above ++ between) (pathFrom path names) d view' node' := by
  obtain ⟨view', node', -, follows, stands⟩ := h.follow_both leads
  exact ⟨view', node', follows, stands⟩

/-- A node is bound to the function that its command names. -/
theorem binding (h : Stands registry above path c view node) :
    (c.handler = "" ∧ node.binding? = none) ∨
      (c.handler ≠ "" ∧ ∃ handler, registry.get? c.handler = some handler ∧
        node.binding? = some ⟨c.handler, handler⟩) := by
  rcases CommandFields.binding?_eq_ok_iff.mp h.agrees.binding with
    unbound | ⟨named, handler, registered, -, bound⟩
  · exact .inl unbound
  · exact .inr ⟨named, handler, registered, bound⟩

/-- A node that is bound is bound to a function that its command names and that fits it. -/
theorem of_bound (h : Stands registry above path c view node) {binding : Binding}
    (bound : node.binding? = some binding) :
    c.handler ≠ "" ∧ binding.name = c.handler ∧
      registry.get? c.handler = some binding.handler ∧
      (binding.handler.isAction = true → node.arity = .none) := by
  rcases CommandFields.binding?_eq_ok_iff.mp h.agrees.binding with
    ⟨-, unbound⟩ | ⟨named, handler, registered, fits, same⟩
  · rw [bound] at unbound
    cases unbound
  · rw [bound] at same
    cases same
    exact ⟨named, rfl, registered, fits⟩

/-- A node has commands below it exactly when the declared command has. -/
theorem isEmpty_children (h : Stands registry above path c view node) :
    node.children.isEmpty = c.commands.isEmpty := by
  obtain ⟨below, -, perm, all⟩ := h.built_below
  have same : node.children.length = c.commands.length := by
    rw [perm.length_eq, List.length_map, all.length_eq]
  rw [Bool.eq_iff_iff, List.isEmpty_iff_length_eq_zero, List.isEmpty_iff_length_eq_zero, same]

end Stands

end ToolTree
