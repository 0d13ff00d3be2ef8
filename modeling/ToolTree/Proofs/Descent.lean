import ToolTree.Proofs.Reading
import ToolTree.Proofs.Standing

/-!
Where a line leads in a built tree.

A line that is read selects a chain of commands. In a built tree each level of the chain stands for
a declared command on the way down (`Stands.descent`), so the names of the chain lead somewhere on
both sides of the tree: the walk over the nodes never meets a name without a node, and the walk
over the grammars ends at the command that was read last. What a name is set to there comes from a
declared flag of that name, though perhaps from one of a command above that is out of sight
(`Descent.declared`).
-/

namespace ToolTree

open CommandLine (Argument Chain FlagType Level Setting View)

theorem CommandLine.Chain.names_above (level : Level) (below : Chain) :
    (Chain.above level below).names = below.top.view.grammar.name :: below.names := by
  rw [names, levels, List.tail_cons, levels_eq, List.map_cons]
  rfl

/-- A chain that starts at a command below some others and ends at a command below it. The
commands on the way are `between`; each level of the chain stands for one of them or for the
command at the end. -/
structure Descent (registry : Registry) (above : List CommandFields) (path : String)
    (c : CommandDecl) (view : View) (node : Node) (chain : Chain) (between : List CommandFields)
    (d : CommandDecl) (last : Node) : Prop where
  leads : c.Leads between chain.names d
  selects : view.follow? chain.names = some chain.leaf.view
  follows : node.follow? chain.names = some last
  stands : Stands registry (above ++ between) (pathFrom path chain.names) d chain.leaf.view last
  levels : ∀ level ∈ chain.levels, ∃ upper e path' node',
    upper ++ [e.toCommandFields] <+: above ++ between ++ [d.toCommandFields] ∧
      Stands registry upper path' e level.view node'

section Descent

variable {registry : Registry} {above : List CommandFields} {path : String} {c : CommandDecl}
  {view : View} {node : Node} {chain : Chain}

/-- What a command declares for its lines are flags in sight, each with its type. -/
theorem Stands.flag_of_declares (h : Stands registry above path c view node) {name : String}
    {type : FlagType} (declares : view.Declares name type) :
    ∃ flag ∈ visibleFlags above c.toCommandFields, flag.name = name ∧
      flag.flagKind = .ok type.kind := by
  obtain ⟨arg, mem, rfl, role⟩ := declares
  rcases h.argument_cases mem with ⟨flag, seen, yield⟩ | extra
  · obtain ⟨own, role', typed⟩ := yield.role
    rw [role] at role'
    cases role'
    exact ⟨flag, seen, yield.name.symm, typed⟩
  · have noFlag := extra.noFlag
    rw [Argument.flagType?, role] at noFlag
    cases noFlag

/-- A chain that goes down from a command of a built tree ends at one below it. -/
theorem Stands.descent (h : Stands registry above path c view node)
    (descends : chain.Descends view) :
    ∃ between d last, Descent registry above path c view node chain between d last := by
  induction descends generalizing above path c node with
  | @last view p level sound finished =>
    have top : level.view = view := (Chain.Descends.last sound finished).top_view
    refine ⟨[], c, node, .here c, ?_, rfl, ?_, fun other mem => ?_⟩
    · rw [Chain.leaf, top]
      rfl
    · rw [List.append_nil, Chain.leaf, top]
      exact h
    · cases List.mem_singleton.mp mem
      exact ⟨above, c, path, node, ⟨[], by simp⟩, top ▸ h⟩
  | @above view p level grammar below sound finished mem descends ih =>
    have top : level.view = view := (Chain.Descends.above sound finished mem descends).top_view
    obtain ⟨⟨key, child⟩, entry, ⟨named, -⟩, childNode, found, stands⟩ := h.entry_of_command mem
    obtain ⟨between, d, last, rest⟩ := ih stands
    have names : (Chain.above level below).names = grammar.name :: below.names := by
      rw [Chain.names_above, descends.top_view]
      rfl
    have split : above ++ c.toCommandFields :: between =
        above ++ [c.toCommandFields] ++ between := by simp
    refine ⟨c.toCommandFields :: between, d, last, ?_, ?_, ?_, ?_, fun other mem => ?_⟩
    · rw [names, named]
      exact .down entry rest.leads
    · rw [names, View.follow?, h.subcommand?_name mem]
      exact rest.selects
    · rw [names, Node.follow?, found]
      exact rest.follows
    · rw [names, split]
      exact rest.stands
    · rw [split]
      rcases List.mem_cons.mp mem with rfl | deeper
      · refine ⟨above, c, path, node, ?_, top ▸ h⟩
        rw [List.append_assoc _ between]
        exact List.prefix_append _ _
      · exact rest.levels other deeper

/-- What is persistent anywhere on the chain is a persistent flag of a command on the way. -/
theorem Descent.persistent {between : List CommandFields} {d : CommandDecl} {last : Node}
    (h : Descent registry above path c view node chain between d last) {name : String}
    (mem : name ∈ chain.persistentNames) :
    ∃ flag ∈ persistentFlags (above ++ between ++ [d.toCommandFields]), flag.name = name := by
  obtain ⟨level, listed, mem⟩ := List.mem_flatMap.mp mem
  obtain ⟨arg, kept, rfl⟩ := List.mem_map.mp mem
  obtain ⟨seen, persistent⟩ := List.mem_filter.mp kept
  obtain ⟨upper, e, path', node', onTheWay, stands⟩ := h.levels level listed
  obtain ⟨flag, declared, yields⟩ := stands.persistent_argument seen persistent
  obtain ⟨command, mem, own, persistent⟩ := mem_persistentFlags_iff.mp declared
  exact ⟨flag, mem_persistentFlags_iff.mpr ⟨command, onTheWay.subset mem, own, persistent⟩,
    yields.name.symm⟩

/-- What a name is set to on the selected command was given to a flag of that name. When that flag
is not in sight, it is a flag of a command on the way alone, and the name is looked up there since
a flag in sight hands it down the chain. -/
theorem Descent.declared {between : List CommandFields} {d : CommandDecl} {last : Node}
    (h : Descent registry above path c view node chain between d last)
    (descends : chain.Descends view) {name : String} {setting : Setting}
    (set : chain.setting? name = some setting) :
    ∃ (flag : FlagDecl) (type : FlagType), flag.name = name ∧ flag.flagKind = .ok type.kind ∧
      type.Stores setting.payload ∧
      (flag ∈ visibleFlags (above ++ between) d.toCommandFields ∨
        (flag.persistent = false ∧ (∃ upper ∈ above ++ between, flag ∈ upper.flags) ∧
          ∃ other ∈ persistentFlags (above ++ between ++ [d.toCommandFields]),
            other.name = name)) := by
  unfold Chain.setting? at set
  split at set
  · next persists =>
    obtain ⟨level, mem, found⟩ := Chain.level_of_merged set
    obtain ⟨type, declares, stores⟩ := descends.declared mem found
    obtain ⟨upper, e, path', node', onTheWay, stands⟩ := h.levels level mem
    obtain ⟨flag, seen, named, typed⟩ := stands.flag_of_declares declares
    refine ⟨flag, type, named, typed, stores, ?_⟩
    cases persistent : flag.persistent with
    | true =>
      obtain ⟨command, listed, own, -⟩ :=
        mem_persistentFlags_iff.mp (mem_persistentFlags_of_visible seen persistent)
      refine .inl (mem_visibleFlags_of_persistent (mem_persistentFlags_iff.mpr ?_))
      exact ⟨command, onTheWay.subset listed, own, persistent⟩
    | false =>
      have own := mem_flags_of_visible seen persistent
      have listed : e.toCommandFields ∈ above ++ between ++ [d.toCommandFields] :=
        onTheWay.subset (List.mem_append_right _ (List.mem_singleton_self _))
      rcases List.mem_append.mp listed with before | atEnd
      · exact .inr ⟨rfl, ⟨_, before, own⟩, h.persistent persists⟩
      · rw [List.mem_singleton.mp atEnd] at own
        exact .inl (List.mem_append_right _ own)
  · obtain ⟨type, declares, stores⟩ := descends.declared chain.leaf_mem_levels set
    obtain ⟨flag, seen, named, typed⟩ := h.stands.flag_of_declares declares
    exact ⟨flag, type, named, typed, stores, .inl seen⟩

/-- The chain that a line selects in a built tree goes down from the root. -/
theorem descent_of_parse {tool : ToolDecl} {tree : Tree} {argv : List String}
    (built : (tool.build registry).result = .ok tree)
    (read : tree.grammar.parse argv = .ok chain) :
    chain.Descends (.ofRoot tree.grammar) ∧ ∃ above c last,
      Descent registry [] tool.rootName tool.tree (.ofRoot tree.grammar) tree.root chain above c
        last := by
  have descends : chain.Descends (.ofRoot tree.grammar) :=
    CommandLine.descends_of_readTokens CommandLine.Progress.sound_empty read
  exact ⟨descends, (stands_root built).descent descends⟩

end Descent

end ToolTree
