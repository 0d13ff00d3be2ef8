import ToolTree.Proofs.Building

/-!
Which command keeps a tree from being built.

The building of a command fails by the command itself or by one below it, so the error of a failed
building is that of one command that names lead to (`exists_own_of_buildNode`). An error that names
a function is the fault of a command of that function, which is not registered or takes no words
(`unfit_of_build`).
-/

namespace ToolTree

open CommandLine (Grammar)

/-! ### Building, refused -/

theorem CommandFields.binding?_eq_error_iff {command : CommandFields} {registry : Registry}
    {path : String} {arity : Arity} {e : BuildError} :
    command.binding? registry path arity = .error e ↔ command.handler ≠ "" ∧
      ((registry.get? command.handler = none ∧
          e = .functionNotRegistered path command.handler) ∨
        ∃ handler, registry.get? command.handler = some handler ∧ handler.isAction = true ∧
          arity ≠ .none ∧ e = .signatureMismatch path command.handler arity) := by
  unfold CommandFields.binding?
  by_cases unbound : command.handler = ""
  · simp [unbound]
  · rw [if_neg unbound]
    cases registry.get? command.handler with
    | none =>
      constructor
      · rintro ⟨⟩
        exact ⟨unbound, .inl ⟨rfl, rfl⟩⟩
      · rintro ⟨-, ⟨-, rfl⟩ | ⟨_, ⟨⟩, -⟩⟩
        rfl
    | some handler =>
      dsimp only
      split
      · next misfit =>
        constructor
        · rintro ⟨⟩
          exact ⟨unbound, .inr ⟨handler, rfl, misfit.1, misfit.2, rfl⟩⟩
        · rintro ⟨-, ⟨⟨⟩, -⟩ | ⟨_, -, -, -, rfl⟩⟩
          rfl
      · next fits =>
        constructor
        · rintro ⟨⟩
        · rintro ⟨-, ⟨⟨⟩, -⟩ | ⟨_, ⟨⟩, action, words, -⟩⟩
          exact absurd ⟨action, words⟩ fits

section Refused

variable {registry : Registry} {inherited : Scope} {name path : String}
  {version? : Option String} {e : BuildError}

theorem buildOwn_eq_error_iff {command : CommandFields} {commands : List (String × CommandDecl)} :
    (buildOwn registry command name path inherited version? commands).result = .error e ↔
      (∃ cause, command.arity = .error cause ∧ BuildError.invalidArgs path cause = e) ∨
      ∃ arity, command.arity = .ok arity ∧ (Flags.ofDecls inherited path command.flags = .error e ∨
        ∃ flags, Flags.ofDecls inherited path command.flags = .ok flags ∧
          (command.binding? registry path arity = .error e ∨
            ∃ binding?, command.binding? registry path arity = .ok binding? ∧
              checkAliases path commands = .error e)) := by
  simp [buildOwn, bind_eq_error_iff, mapError_eq_ok_iff, mapError_eq_error_iff]

theorem buildNode_eq_error_iff {c : CommandDecl} :
    buildNode registry inherited name path version? c = .error e ↔
      (buildOwn registry c.toCommandFields name path inherited version?
        c.commands).result = .error e ∨
      ∃ own, (buildOwn registry c.toCommandFields name path inherited version?
          c.commands).result = .ok own ∧
        (buildBelow registry own.inheritable path c.commands).result = .error e := by
  simp only [buildNode, bind_eq_error_iff, pure_ne_error, and_false, exists_false, or_false]

/-- Commands that stand side by side fail by the first of them that is not built. -/
theorem failed_of_buildBelow {commands : List (String × CommandDecl)}
    (failed : (buildBelow registry inherited path commands).result = .error e) :
    ∃ before key child after, commands = before ++ (key, child) :: after ∧
      (∀ entry ∈ before, ∃ built, BuildsBelow registry inherited path entry built) ∧
      buildNode registry inherited (child.nameOr key) (childPath path (child.nameOr key)) none
        child = .error e := by
  induction commands with
  | nil => cases failed
  | cons entry rest ih =>
    obtain ⟨key, child⟩ := entry
    simp only [buildBelow, Traced.result_bind, Traced.result_pure, bind_eq_error_iff,
      result_buildCommand] at failed
    rcases failed with first | ⟨built, first, others | ⟨_, -, ⟨⟩⟩⟩
    · exact ⟨[], key, child, rest, rfl, by simp, first⟩
    · obtain ⟨before, key', child', after, rfl, all, failed⟩ := ih others
      refine ⟨(key, child) :: before, key', child', after, rfl, ?_, failed⟩
      exact List.forall_mem_cons.mpr ⟨⟨built, first⟩, all⟩

/-- A failed building fails by one of the commands that names lead to. -/
theorem exists_own_of_buildNode {c : CommandDecl}
    (failed : buildNode registry inherited name path version? c = .error e) :
    ∃ above names d inherited' name' version?', c.Leads above names d ∧
      (buildOwn registry d.toCommandFields name' (pathFrom path names) inherited' version?'
        d.commands).result = .error e := by
  induction c using CommandDecl.induction generalizing inherited name path version? with
  | step fields commands ih =>
    rcases buildNode_eq_error_iff.mp failed with own | ⟨built, -, below⟩
    · exact ⟨[], [], _, inherited, name, version?, .here _, own⟩
    · obtain ⟨before, key, child, after, rfl, -, failed⟩ := failed_of_buildBelow below
      have entry : (key, child) ∈ before ++ (key, child) :: after := by simp
      obtain ⟨above, names, d, inherited', name', version?', leads, own⟩ :=
        ih (key, child) entry failed
      exact ⟨_, _, d, inherited', name', version?', .down entry leads, own⟩

end Refused

/-! ### Functions at fault -/

/-- The function that an error names. -/
def BuildError.function? : BuildError → Option String
  | .functionNotRegistered _ name => some name
  | .signatureMismatch _ name _ => some name
  | _ => none

theorem function?_of_add {flags : Flags} {path : String} {flag : FlagDecl} {e : BuildError}
    (refused : flags.add path flag = .error e) : e.function? = none := by
  simp only [Flags.add_eq, bind_eq_error_iff, mapError_eq_error_iff, mapError_eq_ok_iff] at refused
  rcases refused with ⟨cause, -, rfl⟩ | ⟨kind, -, unfit | ⟨short?, -, refused⟩⟩
  · rfl
  · unfold FlagDecl.short? at unfit
    split at unfit
    · cases unfit
    · split at unfit
      · cases unfit
      · cases unfit
        rfl
  · split at refused
    · cases refused
      rfl
    · rcases bind_eq_error_iff.mp refused with default | ⟨_, -, ⟨⟩⟩
      unfold FlagDecl.flagType at default
      split at default
      · cases default
      · cases default
      · split at default
        · cases default
        · split at default
          · cases default
          · cases default
            rfl
      · cases default

theorem function?_of_ofDecls {inherited : Scope} {path : String} {decls : List FlagDecl}
    {e : BuildError} (refused : Flags.ofDecls inherited path decls = .error e) :
    e.function? = none := by
  unfold Flags.ofDecls at refused
  generalize (⟨inherited, inherited, []⟩ : Flags) = flags at refused
  induction decls generalizing flags with
  | nil => cases refused
  | cons flag rest ih =>
    rw [List.foldlM_cons, bind_eq_error_iff] at refused
    rcases refused with first | ⟨next, -, others⟩
    · exact function?_of_add first
    · exact ih next others

theorem function?_of_checkAliases {path : String} {commands : List (String × CommandDecl)}
    {e : BuildError} (refused : checkAliases path commands = .error e) : e.function? = none := by
  unfold checkAliases at refused
  split at refused
  · cases refused
    rfl
  · cases refused

/-- An error that names a function comes from a command that the function does not fit. -/
theorem unfit_of_buildOwn {registry : Registry} {command : CommandFields}
    {commands : List (String × CommandDecl)} {inherited : Scope} {name path function : String}
    {version? : Option String} {e : BuildError}
    (failed : (buildOwn registry command name path inherited version? commands).result = .error e)
    (blames : e.function? = some function) :
    function ≠ "" ∧ command.handler = function ∧
      ∀ handler, registry.get? function = some handler → handler.isAction = true := by
  rcases buildOwn_eq_error_iff.mp failed with
    ⟨cause, -, rfl⟩ | ⟨arity, -, flags | ⟨taken, -, unbound | ⟨binding?, -, taken⟩⟩⟩
  · cases blames
  · rw [function?_of_ofDecls flags] at blames
    cases blames
  · obtain ⟨named, ⟨missing, rfl⟩ | ⟨handler, registered, action, -, rfl⟩⟩ :=
      CommandFields.binding?_eq_error_iff.mp unbound
    · cases blames
      refine ⟨named, rfl, fun handler registered => ?_⟩
      rw [missing] at registered
      cases registered
    · cases blames
      refine ⟨named, rfl, fun other registered' => ?_⟩
      rw [registered] at registered'
      cases registered'
      exact action
  · rw [function?_of_checkAliases taken] at blames
    cases blames

/-- A tool that has a problem is refused for its problems; any other fails by its tree. -/
theorem build_eq_error_cases {tool : ToolDecl} {registry : Registry} {e : BuildError}
    (failed : (tool.build registry).result = .error e) :
    (tool.problems ≠ [] ∧ e = .invalid tool.problems) ∨ (tool.problems = [] ∧
      buildNode registry {} tool.rootName tool.rootName tool.version? tool.tree = .error e) := by
  unfold ToolDecl.build at failed
  split at failed
  · next valid =>
    refine .inr ⟨List.isEmpty_iff.mp valid, ?_⟩
    simp only [ToolDecl.buildValid, Traced.result_bind, Traced.result_report, Traced.result_pure,
      bind_eq_error_iff, reduceCtorEq, and_false, exists_false, or_false] at failed
    exact buildNode_eq_error_iff.mpr failed
  · next problems =>
    cases failed
    exact .inl ⟨fun none => problems (List.isEmpty_iff.mpr none), rfl⟩

/-- An error that names a function is the fault of a command of that function, which is not
registered or takes no words. -/
theorem unfit_of_build {tool : ToolDecl} {registry : Registry} {e : BuildError} {function : String}
    (failed : (tool.build registry).result = .error e) (blames : e.function? = some function) :
    ∃ above names c, tool.tree.Leads above names c ∧ function ≠ "" ∧ c.handler = function ∧
      ∀ handler, registry.get? function = some handler → handler.isAction = true := by
  rcases build_eq_error_cases failed with ⟨-, rfl⟩ | ⟨-, failed⟩
  · cases blames
  · obtain ⟨above, names, c, _, _, _, leads, own⟩ := exists_own_of_buildNode failed
    exact ⟨above, names, c, leads, unfit_of_buildOwn own blames⟩

end ToolTree
