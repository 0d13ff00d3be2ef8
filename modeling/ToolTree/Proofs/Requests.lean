import ToolTree.Proofs.Descent

/-!
When a selected command is called, and what stands in the way.

A node that is bound to a function asks for the call exactly when it accepts the number of words and
no persistent required flag is missing; otherwise the first of these two is the error
(`NodeFields.request_eq_ok_iff`, `NodeFields.request_eq_error_iff`). A node that is bound to nothing
asks for help or refuses a word. `Tree.Asks` lists all that a line can ask for, so that a proof
about a line goes through these cases and not through the steps of `Tree.resolve`.

A call is made by applying the function to what it takes (`Handler.Gives`), and a run that makes one
ends as the function does (`Run.Calls`).
-/

namespace ToolTree

open CommandLine (Chain View)

namespace NodeFields

variable {node : NodeFields} {binding : Binding} {chain : Chain}

theorem request_eq_ok_iff {request : Request} :
    node.request binding chain = .ok request ↔
      node.arity.Accepts chain.leaf.words.length ∧ node.missingFlags chain = [] ∧
        request = .call ⟨binding, node.invocation chain, chain.leaf.words⟩ := by
  simp only [NodeFields.request, bind_eq_ok_iff, mapError_eq_ok_iff]
  constructor
  · rintro ⟨_, accepted, ok⟩
    split at ok
    · next complete =>
      cases ok
      exact ⟨accepted, List.isEmpty_iff.mp complete, rfl⟩
    · cases ok
  · rintro ⟨accepted, complete, rfl⟩
    refine ⟨(), accepted, ?_⟩
    rw [if_pos (List.isEmpty_iff.mpr complete)]
    rfl

theorem request_eq_error_iff {e : RunError} :
    node.request binding chain = .error e ↔
      (∃ cause, node.arity.check chain.leaf.words.length = .error cause ∧
        e = .arity node.path cause) ∨
      (node.arity.Accepts chain.leaf.words.length ∧ node.missingFlags chain ≠ [] ∧
        e = .missingFlags node.path (node.missingFlags chain)) := by
  simp only [NodeFields.request, bind_eq_error_iff, mapError_eq_error_iff, mapError_eq_ok_iff]
  refine or_congr (by simp only [eq_comm]) ?_
  constructor
  · rintro ⟨_, accepted, refused⟩
    split at refused
    · cases refused
    · next incomplete =>
      cases refused
      exact ⟨accepted, fun complete => incomplete (List.isEmpty_iff.mpr complete), rfl⟩
  · rintro ⟨accepted, incomplete, rfl⟩
    refine ⟨(), accepted, ?_⟩
    rw [if_neg fun complete => incomplete (List.isEmpty_iff.mp complete)]

end NodeFields

/-- A line that is read asks for what its chain asks for. -/
theorem Tree.resolve_of_parse {tree : Tree} {argv : List String} {chain : Chain}
    (read : tree.grammar.parse argv = .ok chain) :
    tree.resolve argv = tree.request chain argv.head? := by
  rw [Tree.resolve, read]
  rfl

section Selected

variable {tree : Tree} {chain : Chain} {program? : Option String} {node : Node}

/-- A bound command that a chain leads to asks for its own call. -/
theorem Tree.request_of_bound (follows : tree.root.follow? chain.names = some node)
    {binding : Binding} (bound : node.binding? = some binding) :
    tree.request chain program? = node.request binding chain := by
  simp only [Tree.request, follows, bound]

/-- A command that is bound to nothing shows its help when no word is left for commands below. -/
theorem Tree.request_of_unbound (follows : tree.root.follow? chain.names = some node)
    (unbound : node.binding? = none)
    (free : chain.leaf.words = [] ∨ node.children.isEmpty = true) :
    tree.request chain program? = .ok (.help (chain.help program?)) := by
  rcases free with noWord | childless
  · simp [Tree.request, follows, unbound, noWord]
  · simp [Tree.request, follows, unbound, childless]

/-- A command that is bound to nothing refuses a word that names none of the commands below. -/
theorem Tree.request_of_unknown (follows : tree.root.follow? chain.names = some node)
    (unbound : node.binding? = none) {word : String} {rest : List String}
    (left : chain.leaf.words = word :: rest) (parent : node.children.isEmpty = false) :
    tree.request chain program? =
      .error (.unknownCommand word node.path (chain.advice program?)) := by
  simp [Tree.request, follows, unbound, left, parent, Option.filter]

end Selected

/-! ### All that a line can ask for -/

/-- A line selects a chain that leads to a node, which is bound to a function. -/
structure Tree.Selects (tree : Tree) (argv : List String) (chain : Chain) (node : Node)
    (binding : Binding) : Prop where
  read : tree.grammar.parse argv = .ok chain
  follows : tree.root.follow? chain.names = some node
  bound : node.binding? = some binding

/-- All that a line can ask for. A call, a wrong number of words and missing flags come from a
selected command that is bound to a function. -/
inductive Tree.Asks (tree : Tree) (argv : List String) : Except RunError Request → Prop where
  | refused (cause : CommandLine.UsageError) : Asks tree argv (.error (.usage cause))
  | help (text : String) : Asks tree argv (.ok (.help text))
  | unknown (word path advice : String) : Asks tree argv (.error (.unknownCommand word path advice))
  | arity {chain : Chain} {node : Node} {binding : Binding} {cause : ArityError} :
      tree.Selects argv chain node binding →
      node.arity.check chain.leaf.words.length = .error cause →
      Asks tree argv (.error (.arity node.path cause))
  | missing {chain : Chain} {node : Node} {binding : Binding} :
      tree.Selects argv chain node binding → node.arity.Accepts chain.leaf.words.length →
      node.missingFlags chain ≠ [] →
      Asks tree argv (.error (.missingFlags node.path (node.missingFlags chain)))
  | call {chain : Chain} {node : Node} {binding : Binding} :
      tree.Selects argv chain node binding → node.arity.Accepts chain.leaf.words.length →
      node.missingFlags chain = [] →
      Asks tree argv (.ok (.call ⟨binding, node.invocation chain, chain.leaf.words⟩))

/-- The chain that selects a node of a built tree goes down to it. -/
theorem Tree.Selects.descent {tool : ToolDecl} {registry : Registry} {tree : Tree}
    {argv : List String} {chain : Chain} {node : Node} {binding : Binding}
    (h : tree.Selects argv chain node binding)
    (built : (tool.build registry).result = .ok tree) :
    chain.Descends (.ofRoot tree.grammar) ∧ ∃ above c,
      Descent registry [] tool.rootName tool.tree (.ofRoot tree.grammar) tree.root chain above c
        node := by
  obtain ⟨descends, above, c, last, descent⟩ := descent_of_parse built h.read
  have same := descent.follows
  rw [h.follows] at same
  cases same
  exact ⟨descends, above, c, descent⟩

/-- What a selected node that is bound to a function is asked for. -/
theorem Tree.Selects.asks {tree : Tree} {argv : List String} {chain : Chain} {node : Node}
    {binding : Binding} (h : tree.Selects argv chain node binding) :
    tree.Asks argv (node.request binding chain) := by
  cases asked : node.request binding chain with
  | ok request =>
    obtain ⟨accepted, complete, rfl⟩ := NodeFields.request_eq_ok_iff.mp asked
    exact .call h accepted complete
  | error e =>
    rcases NodeFields.request_eq_error_iff.mp asked with
      ⟨cause, refused, rfl⟩ | ⟨accepted, incomplete, rfl⟩
    · exact .arity h refused
    · exact .missing h accepted incomplete

theorem Tree.asks_resolve (tree : Tree) (argv : List String) :
    tree.Asks argv (tree.resolve argv) := by
  cases read : tree.grammar.parse argv with
  | error cause =>
    rw [Tree.resolve, read]
    exact .refused cause
  | ok chain =>
    rw [Tree.resolve_of_parse read]
    cases follows : tree.root.follow? chain.names with
    | none =>
      rw [Tree.request, follows]
      exact .help ""
    | some node =>
      cases bound : node.binding? with
      | some binding =>
        rw [Tree.request_of_bound follows bound]
        exact Tree.Selects.asks ⟨read, follows, bound⟩
      | none =>
        cases left : chain.leaf.words with
        | nil =>
          rw [Tree.request_of_unbound follows bound (.inl left)]
          exact .help _
        | cons word rest =>
          cases childless : node.children.isEmpty with
          | true =>
            rw [Tree.request_of_unbound follows bound (.inr childless)]
            exact .help _
          | false =>
            rw [Tree.request_of_unknown follows bound left childless]
            exact .unknown _ _ _

/-! ### Calls -/

/-- What a function gives. One that takes words is applied to the invocation and to all of the
words, an action to the invocation alone. -/
inductive Handler.Gives (invocation : Invocation) (words : List String) :
    Handler → Except String Unit → Prop where
  | handler (run : Invocation → List String → Except String Unit) :
      Gives invocation words (.handler run) (run invocation words)
  | action (run : Invocation → Except String Unit) :
      Gives invocation words (.action run) (run invocation)

theorem Handler.gives_iff {handler : Handler} {invocation : Invocation} {words : List String}
    {given : Except String Unit} :
    handler.Gives invocation words given ↔ handler.call invocation words = given := by
  constructor
  · rintro (⟨run⟩ | ⟨run⟩)
    · exact Handler.call_handler run invocation words
    · exact Handler.call_action run invocation words
  · rintro rfl
    cases handler with
    | handler run => exact .handler run
    | action run => exact .action run

/-- A run makes a call and ends as the function does: well, or with its text under the path of the
command. -/
structure Run.Calls (run : Run) (call : Call) : Prop where
  called : run.call? = some call
  ends : ∃ given, call.binding.handler.Gives call.invocation call.words given ∧
    run.result = match given with
      | .ok () => .ok .ran
      | .error text => .error (.handler call.invocation.path text)

theorem Call.calls (call : Call) : Run.Calls ⟨some call, call.result⟩ call :=
  ⟨rfl, _, Handler.gives_iff.mpr rfl, rfl⟩

/-- A run ends well only by a call. -/
theorem Tree.called_of_ran {tree : Tree} {argv : List String}
    (ran : (tree.run argv).result = .ok .ran) : ∃ call, (tree.run argv).call? = some call := by
  unfold Tree.run at ran ⊢
  split at ran
  · cases ran
  · cases ran
  · next call _ => exact ⟨call, rfl⟩

/-- A call that a run makes is one of the selected command, which accepts the number of words and
misses no flag. -/
theorem Tree.checks_of_called {tree : Tree} {argv : List String} {call : Call}
    (called : (tree.run argv).call? = some call) : ∃ chain node binding,
      tree.Selects argv chain node binding ∧ node.arity.Accepts chain.leaf.words.length ∧
        node.missingFlags chain = [] ∧
        call = ⟨binding, node.invocation chain, chain.leaf.words⟩ := by
  have asks := tree.asks_resolve argv
  unfold Tree.run at called
  generalize tree.resolve argv = resolved at asks called
  cases asks with
  | refused => cases called
  | help => cases called
  | unknown => cases called
  | arity => cases called
  | missing => cases called
  | call selects accepted complete =>
    exact ⟨_, _, _, selects, accepted, complete, (Option.some.inj called).symm⟩

/-- A run that makes a call ends as its function does. -/
theorem Tree.calls_of_called {tree : Tree} {argv : List String} {call : Call}
    (called : (tree.run argv).call? = some call) : (tree.run argv).Calls call := by
  unfold Tree.run at called ⊢
  split at called
  · cases called
  · cases called
  · cases called
    exact call.calls

/-- A call that a run makes is one of the selected command. -/
theorem Tree.selects_of_called {tree : Tree} {argv : List String} {call : Call}
    (called : (tree.run argv).call? = some call) : ∃ chain node binding,
      tree.Selects argv chain node binding ∧
        call = ⟨binding, node.invocation chain, chain.leaf.words⟩ := by
  obtain ⟨chain, node, binding, selects, -, -, same⟩ := Tree.checks_of_called called
  exact ⟨chain, node, binding, selects, same⟩

end ToolTree
