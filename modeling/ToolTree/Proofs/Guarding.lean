import ToolTree.Proofs.Requests

/-!
What is checked before a function is called.

A chain that goes down a built tree ends at a declared command, seen through the view that its last
level was read for (`descent_of_parse`). The required flags of that command that are not persistent
are on the line because its level was read to its end (`Stands.local_given`); the persistent ones,
its own and those from above, because the call is refused otherwise. Together with the rule on
words this guards every line that is run.
-/

namespace ToolTree

open CommandLine (Chain View)

/-! ### Required flags -/

namespace Stands

variable {registry : Registry} {above : List CommandFields} {path : String} {c : CommandDecl}
  {view : View} {node : Node} {chain : Chain}

/-- A required flag that is not persistent is on the line that selects its command. -/
theorem local_given (h : Stands registry above path c chain.leaf.view node)
    (descends : chain.Descends view)
    (persistent : ∀ name ∈ chain.persistentNames,
      ∃ flag ∈ persistentFlags (above ++ [c.toCommandFields]), flag.name = name)
    {flag : FlagDecl} (mem : flag ∈ c.flags) (required : flag.required = true)
    (localOnly : flag.persistent = false) : chain.isGiven flag.name = true := by
  -- A name that is persistent on the chain would be looked up on all of it, not on this command.
  have apart : flag.name ∉ chain.persistentNames := by
    intro listed
    obtain ⟨other, seen, same⟩ := persistent _ listed
    obtain ⟨-, -, -, persists⟩ := mem_persistentFlags_iff.mp seen
    rw [h.eq_of_name_eq (mem_visibleFlags_of_persistent seen) (List.mem_append_right _ mem) same,
      localOnly] at persists
    cases persists
  obtain ⟨arg, argMem, asked, named⟩ :=
    h.required_argument_iff.mpr ⟨flag, mem, ⟨required, localOnly⟩, rfl⟩
  obtain ⟨setting, found, line⟩ := descends.required_given argMem asked
  rw [Chain.isGiven, Chain.setting?, if_neg apart, ← named, found]
  simpa using line

/-- When no persistent required flag is missing, the line sets all required flags in sight. -/
theorem required_given (h : Stands registry above path c chain.leaf.view node)
    (descends : chain.Descends view)
    (persistent : ∀ name ∈ chain.persistentNames,
      ∃ flag ∈ persistentFlags (above ++ [c.toCommandFields]), flag.name = name)
    (complete : node.missingFlags chain = []) {flag : FlagDecl}
    (mem : flag ∈ visibleFlags above c.toCommandFields) (required : flag.required = true) :
    chain.isGiven flag.name = true := by
  have given : flag ∈ persistentFlags (above ++ [c.toCommandFields]) →
      chain.isGiven flag.name = true := by
    intro listed
    have needed : flag.name ∈ node.requiredFlags := by
      rw [h.agrees.requiredFlags]
      exact List.mem_map_of_mem (List.mem_filter.mpr ⟨listed, required⟩)
    simpa using List.filter_eq_nil_iff.mp complete _ needed
  cases persists : flag.persistent with
  | true => exact given (mem_persistentFlags_of_visible mem persists)
  | false =>
    exact h.local_given descends persistent (mem_flags_of_visible mem persists) required persists

/-- A flag in sight that the line sets reads as set. -/
theorem isSet_of_given (h : Stands registry above path c view node) {flag : FlagDecl}
    (mem : flag ∈ visibleFlags above c.toCommandFields)
    (given : chain.isGiven flag.name = true) :
    (node.invocation chain).isSet flag.name = .ok true := by
  obtain ⟨kind, typed⟩ := (h.visible_wellFormed flag mem).flagKind
  exact bind_eq_ok_iff.mpr ⟨kind, h.kindOf_of_visible mem typed, congrArg Except.ok given⟩

end Stands

/-! ### Calls -/

/-- What is checked of a call that a declared command below some others makes: it is of the
function of that command, with a number of words that the command accepts, and each required flag
in sight is set. -/
structure Call.Checked (registry : Registry) (above : List CommandFields) (c : CommandDecl)
    (call : Call) : Prop where
  named : c.handler ≠ ""
  binding : call.binding.name = c.handler
  registered : registry.get? c.handler = some call.binding.handler
  accepted : ∃ arity, c.arity = .ok arity ∧ arity.Accepts call.words.length
  required : ∀ flag ∈ visibleFlags above c.toCommandFields, flag.required = true →
    call.invocation.isSet flag.name = .ok true

namespace Call

variable {call : Call}

theorem result_eq_ran_iff : call.result = .ok .ran ↔
    call.binding.handler.Gives call.invocation call.words (.ok ()) := by
  rw [Handler.gives_iff]
  unfold result
  cases call.binding.handler.call call.invocation call.words with
  | ok _ => simp
  | error text => simp

theorem result_eq_handler_iff {path text : String} :
    call.result = .error (.handler path text) ↔ call.invocation.path = path ∧
      call.binding.handler.Gives call.invocation call.words (.error text) := by
  rw [Handler.gives_iff]
  unfold result
  cases call.binding.handler.call call.invocation call.words with
  | ok _ => simp
  | error text => simp

/-- A call that is made ends in one of two ways. -/
theorem result_cases (call : Call) :
    call.result = .ok .ran ∨ ∃ path text, call.result = .error (.handler path text) := by
  unfold result
  cases call.binding.handler.call call.invocation call.words with
  | ok _ => exact .inl rfl
  | error text => exact .inr ⟨_, text, rfl⟩

end Call

/-- A run that is guarded by the declaration of a tool. A call that is made is one of the selected
command, checked in every way; the run ends well or by a failure of the function exactly when the
function, applied to what it takes, gives that, and in all other ways without a call. The flags that
are told to be missing are the persistent required ones in sight that the line does not set, those
from above first. -/
structure Run.Guarded (tool : ToolDecl) (registry : Registry)
    (parsed : Except CommandLine.UsageError Chain) (run : Run) : Prop where
  checked : ∀ call, run.call? = some call → ∃ chain above c, parsed = .ok chain ∧
    tool.tree.Leads above chain.names c ∧ call.words = chain.leaf.words ∧
    call.invocation.path = pathFrom tool.rootName chain.names ∧ call.Checked registry above c
  ran : run.result = .ok .ran ↔ ∃ call, run.call? = some call ∧
    call.binding.handler.Gives call.invocation call.words (.ok ())
  failed : ∀ path text, run.result = .error (.handler path text) ↔ ∃ call,
    run.call? = some call ∧ call.invocation.path = path ∧
    call.binding.handler.Gives call.invocation call.words (.error text)
  uncalled : run.call? = none ↔
    run.result ≠ .ok .ran ∧ ∀ path text, run.result ≠ .error (.handler path text)
  missing : ∀ path flags, run.result = .error (.missingFlags path flags) →
    ∃ chain above c, parsed = .ok chain ∧ tool.tree.Leads above chain.names c ∧
      path = pathFrom tool.rootName chain.names ∧ flags ≠ [] ∧
      flags = (requiredNames (above ++ [c.toCommandFields])).filter (!chain.isGiven ·)

section Guarded

variable {tool : ToolDecl} {registry : Registry} {tree : Tree} {argv : List String}
  {chain : Chain} {node : Node} {binding : Binding}

/-- The chain that a line selects in a built tree leads to a node that stands for a declared
command. -/
theorem stands_of_parse (built : (tool.build registry).result = .ok tree)
    (read : tree.grammar.parse argv = .ok chain) :
    ∃ above c node, tool.tree.Leads above chain.names c ∧
      tree.root.follow? chain.names = some node ∧
      Stands registry above (pathFrom tool.rootName chain.names) c chain.leaf.view node ∧
      chain.Descends (.ofRoot tree.grammar) ∧
      ∀ name ∈ chain.persistentNames,
        ∃ flag ∈ persistentFlags (above ++ [c.toCommandFields]), flag.name = name := by
  obtain ⟨descends, above, c, node, descent⟩ := descent_of_parse built read
  exact ⟨above, c, node, descent.leads, descent.follows, descent.stands, descends,
    fun name mem => descent.persistent mem⟩

theorem checked_of_selects (built : (tool.build registry).result = .ok tree)
    (selects : tree.Selects argv chain node binding)
    (accepted : node.arity.Accepts chain.leaf.words.length)
    (complete : node.missingFlags chain = []) :
    ∃ above c, tool.tree.Leads above chain.names c ∧
      node.path = pathFrom tool.rootName chain.names ∧
      Call.Checked registry above c ⟨binding, node.invocation chain, chain.leaf.words⟩ := by
  obtain ⟨above, c, node', leads, follows, stands, descends, persistent⟩ :=
    stands_of_parse built selects.read
  rw [selects.follows] at follows
  cases follows
  refine ⟨above, c, leads, stands.agrees.path_eq, ?_⟩
  rcases stands.binding with ⟨-, unbound⟩ | ⟨named, handler, registered, bound⟩
  · rw [selects.bound] at unbound
    cases unbound
  · rw [selects.bound] at bound
    cases bound
    refine ⟨named, rfl, registered, ⟨_, stands.agrees.arity, accepted⟩, fun flag mem required => ?_⟩
    have given := stands.required_given descends persistent complete mem required
    exact stands.isSet_of_given mem given

theorem missing_of_selects (built : (tool.build registry).result = .ok tree)
    (selects : tree.Selects argv chain node binding) :
    ∃ above c, tool.tree.Leads above chain.names c ∧
      node.path = pathFrom tool.rootName chain.names ∧ node.missingFlags chain =
        (requiredNames (above ++ [c.toCommandFields])).filter (!chain.isGiven ·) := by
  obtain ⟨above, c, node', leads, follows, stands, -⟩ := stands_of_parse built selects.read
  rw [selects.follows] at follows
  cases follows
  refine ⟨above, c, leads, stands.agrees.path_eq, ?_⟩
  rw [NodeFields.missingFlags, stands.agrees.requiredFlags]

/-- A selected command that is bound to a function has it called when nothing stands in the way. -/
theorem called_of_parse (built : (tool.build registry).result = .ok tree)
    (read : tree.grammar.parse argv = .ok chain) :
    ∃ above c, tool.tree.Leads above chain.names c ∧
      (c.handler ≠ "" → (∃ arity, c.arity = .ok arity ∧ arity.Accepts chain.leaf.words.length) →
        (∀ name ∈ requiredNames (above ++ [c.toCommandFields]), chain.isGiven name = true) →
        (tree.run argv).call?.isSome = true) := by
  obtain ⟨above, c, node, leads, follows, stands, -⟩ := stands_of_parse built read
  refine ⟨above, c, leads, ?_⟩
  rintro named ⟨arity, resolved, accepted⟩ given
  rw [stands.agrees.arity] at resolved
  cases resolved
  rcases stands.binding with ⟨unnamed, -⟩ | ⟨-, handler, -, bound⟩
  · exact absurd unnamed named
  have complete : node.missingFlags chain = [] := by
    rw [NodeFields.missingFlags, stands.agrees.requiredFlags, List.filter_eq_nil_iff]
    intro name needed
    simp [given name needed]
  rw [Tree.run, Tree.resolve_of_parse read, Tree.request_of_bound follows bound,
    NodeFields.request_eq_ok_iff.mpr ⟨accepted, complete, rfl⟩]
  rfl

/-- A run without a call is guarded when its result is none that comes from a function or from
missing flags. -/
theorem Run.Guarded.of_uncalled {parsed : Except CommandLine.UsageError Chain}
    {result : Except RunError Outcome} (notRan : result ≠ .ok .ran)
    (notFailed : ∀ path text, result ≠ .error (.handler path text))
    (missing : ∀ path flags, result = .error (.missingFlags path flags) →
      ∃ chain above c, parsed = .ok chain ∧ tool.tree.Leads above chain.names c ∧
        path = pathFrom tool.rootName chain.names ∧ flags ≠ [] ∧
        flags = (requiredNames (above ++ [c.toCommandFields])).filter (!chain.isGiven ·)) :
    Run.Guarded tool registry parsed ⟨none, result⟩ where
  checked := by
    intro call called
    cases called
  ran := by simpa using notRan
  failed := by simpa using notFailed
  uncalled := by simpa using ⟨notRan, notFailed⟩
  missing := missing

/-- A run that makes a call is guarded when the call is checked. -/
theorem Run.Guarded.of_called {parsed : Except CommandLine.UsageError Chain} {call : Call}
    (checked : ∃ chain above c, parsed = .ok chain ∧ tool.tree.Leads above chain.names c ∧
      call.words = chain.leaf.words ∧
      call.invocation.path = pathFrom tool.rootName chain.names ∧
      call.Checked registry above c) :
    Run.Guarded tool registry parsed ⟨some call, call.result⟩ where
  checked := by
    intro other called
    cases called
    exact checked
  ran := by simp [Call.result_eq_ran_iff]
  failed := by simp [Call.result_eq_handler_iff]
  uncalled := by
    simp only [reduceCtorEq, false_iff, not_and]
    intro notRan notFailed
    rcases call.result_cases with ran | ⟨path, text, failed⟩
    · exact notRan ran
    · exact notFailed path text failed
  missing := by
    intro path flags missing
    rcases call.result_cases with ran | ⟨path, text, failed⟩
    · rw [ran] at missing
      cases missing
    · rw [failed] at missing
      cases missing

/-- Every line that is run against a built tree is guarded, and nothing else keeps a function from
being called: a selected command that has one, accepts the number of words and misses no persistent
required flag calls it. -/
theorem run_guarded (built : (tool.build registry).result = .ok tree) (argv : List String) :
    (tree.run argv).Guarded tool registry (tree.grammar.parse argv) ∧
      ∀ chain, tree.grammar.parse argv = .ok chain → ∃ above c,
        tool.tree.Leads above chain.names c ∧ (c.handler ≠ "" →
          (∃ arity, c.arity = .ok arity ∧ arity.Accepts chain.leaf.words.length) →
          (∀ name ∈ requiredNames (above ++ [c.toCommandFields]), chain.isGiven name = true) →
          (tree.run argv).call?.isSome = true) := by
  refine ⟨?_, fun chain read => called_of_parse built read⟩
  have asks := tree.asks_resolve argv
  unfold Tree.run
  generalize tree.resolve argv = resolved at asks
  cases asks with
  | refused cause => exact .of_uncalled (by simp) (by simp) (by simp)
  | help text => exact .of_uncalled (by simp) (by simp) (by simp)
  | unknown word path advice => exact .of_uncalled (by simp) (by simp) (by simp)
  | arity selects refused => exact .of_uncalled (by simp) (by simp) (by simp)
  | @missing chain node binding selects accepted incomplete =>
    refine .of_uncalled (by simp) (by simp) fun path flags same => ?_
    cases same
    obtain ⟨above, c, leads, path, missing⟩ := missing_of_selects built selects
    exact ⟨chain, above, c, selects.read, leads, path, incomplete, missing⟩
  | @call chain node binding selects accepted complete =>
    obtain ⟨above, c, leads, path, checked⟩ :=
      checked_of_selects built selects accepted complete
    exact .of_called ⟨chain, above, c, selects.read, leads, rfl, path, checked⟩

end Guarded

/-- A tool with a required flag for all commands and one for `push` alone. -/
def fleetTool : ToolDecl where
  name := "fleet"
  root := {
    useLine := "fleet"
    summary := "Run a fleet"
    flags := [{ FlagDecl.ofKind "region" .string "Where" with required := true, persistent := true }] }
  commands := [("push", {
    useLine := "push <app>"
    summary := "Push an app"
    args := some (.exactly 1)
    handler := "push"
    flags := [{ FlagDecl.ofKind "tag" .string "What" with required := true }] })]

/-- A function for `push`. -/
def fleetRegistry : Registry :=
  .ofList [("push", .handler fun _ _ => .ok ())]

theorem run_guarded_fleet :
    ∃ tree, (fleetTool.build fleetRegistry).result = .ok tree ∧
      (tree.run ["fleet", "push", "--tag=1", "web", "--region", "eu"]).result = .ok .ran ∧
      (tree.run ["fleet", "push", "--tag=1", "web", "--region", "eu"]).Guarded fleetTool
        fleetRegistry (tree.grammar.parse ["fleet", "push", "--tag=1", "web", "--region", "eu"]) := by
  have ran : (fleetTool.build fleetRegistry).result.map (fun tree =>
      (tree.run ["fleet", "push", "--tag=1", "web", "--region", "eu"]).result) =
        .ok (.ok .ran) := by rfl
  cases built : (fleetTool.build fleetRegistry).result with
  | error cause =>
    rw [built] at ran
    cases ran
  | ok tree =>
    rw [built] at ran
    exact ⟨tree, rfl, Except.ok.inj ran, (run_guarded built _).1⟩

end ToolTree
