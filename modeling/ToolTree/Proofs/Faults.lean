import ToolTree.Proofs.Failing
import ToolTree.Proofs.Walking

/-!
What the error of a failed building says is so.

`CommandDecl.Fault` says which rule on building a command breaks, with the error that tells of it:
a flag clashes or has a default that cannot be read, the function is missing or takes no words, or
an alias below the command is taken. A valid declaration breaks no other rule. The scope of a
command knows the flags in sight (`Scope.Inherits`), so a clash is blamed on a flag that is really
there. Commands are built in the order of their keys, each before those below it, so the error is
that of the first command that does not fit (`fault_of_build`).
-/

namespace ToolTree

/-! ### Rules that are broken -/

/-- What keeps a flag from joining those in sight, as an error tells it: the name, which is reserved
or taken, or the shorthand together with the name of a flag that has it. -/
inductive FlagDecl.Conflict (seen : List FlagDecl) (flag : FlagDecl) : String → Prop where
  | reserved : flag.name = wordsName → Conflict seen flag s!"--{flag.name}"
  | name {other : FlagDecl} : other ∈ seen → other.name = flag.name →
      Conflict seen flag s!"--{flag.name}"
  | shorthand {other : FlagDecl} : other ∈ seen → flag.shorthand ≠ "" →
      other.shorthand = flag.shorthand →
      Conflict seen flag s!"-{flag.shorthand} (--{other.name})"

/-- A rule that a flag breaks when it joins those in sight, and the error that tells of it. -/
inductive FlagDecl.Fault (seen : List FlagDecl) (path : String) (flag : FlagDecl) :
    BuildError → Prop where
  | conflict {existing : String} : flag.Conflict seen existing →
      Fault seen path flag (.flagConflict path flag.name existing)
  | default : flag.kind = FlagKind.int.spelling → flag.defaultText ≠ "" →
      Text.integer? flag.defaultText = none →
      Fault seen path flag (.invalidDefault path flag.name .int flag.defaultText)

/-- A rule that a command below some others breaks, and the error that tells of it. A flag joins
the persistent ones from above and those before it; an alias, the names of the commands that stand
side by side and the aliases before it. -/
inductive CommandDecl.Fault (registry : Registry) (above : List CommandFields) (path : String)
    (c : CommandDecl) : BuildError → Prop where
  | flag {before after : List FlagDecl} {flag : FlagDecl} {e : BuildError} :
      c.flags = before ++ flag :: after → flag.Fault (persistentFlags above ++ before) path e →
      Fault registry above path c e
  | unregistered : c.handler ≠ "" → registry.get? c.handler = none →
      Fault registry above path c (.functionNotRegistered path c.handler)
  | misfit {handler : Handler} {arity : Arity} : c.handler ≠ "" →
      registry.get? c.handler = some handler → handler.isAction = true →
      c.arity = .ok arity → arity ≠ .none →
      Fault registry above path c (.signatureMismatch path c.handler arity)
  | takenAlias {before after : List String} {word : String} :
      (c.commands.flatMap fun (_, child) => child.aliases) = before ++ word :: after →
      word ∈ (c.commands.map fun (key, child) => child.nameOr key) ++ before →
      Fault registry above path c (.duplicateAlias path word)

theorem FlagDecl.Fault.unfit {seen : List FlagDecl} {path : String} {flag : FlagDecl}
    {e : BuildError} (h : flag.Fault seen path e) : ¬ flag.Fits seen := by
  intro fits
  cases h with
  | conflict conflict =>
    cases conflict with
    | reserved reserved => exact fits.unreserved reserved
    | name mem same => exact fits.apart _ mem (.inl same)
    | shorthand mem nonempty same => exact fits.apart _ mem (.inr ⟨nonempty, same⟩)
  | default typed nonempty unread =>
    obtain ⟨n, read⟩ := fits.default typed nonempty
    rw [unread] at read
    cases read

/-- A command that breaks a rule does not fit. -/
theorem CommandDecl.Fault.unfit {registry : Registry} {above : List CommandFields} {path : String}
    {c : CommandDecl} {e : BuildError} (h : c.Fault registry above path e) :
    ¬ c.Fits registry above := by
  intro fits
  cases h with
  | @flag before after flag _ split fault =>
    have flags := fits.flags
    rw [split] at flags
    refine fault.unfit ⟨(flags.1 flag (by simp)).unreserved, fun other seen => ?_,
      (flags.1 flag (by simp)).default⟩
    rcases List.mem_append.mp seen with upper | own
    · exact (flags.1 flag (by simp)).apart other upper
    · exact (List.pairwise_append.mp flags.2).2.2 other own flag List.mem_cons_self
  | unregistered bound missing =>
    obtain ⟨handler, registered, -⟩ := fits.handler bound
    rw [missing] at registered
    cases registered
  | misfit bound registered action resolved words =>
    obtain ⟨other, registered', wordless⟩ := fits.handler bound
    rw [registered] at registered'
    cases registered'
    rw [wordless action] at resolved
    cases resolved
    exact words rfl
  | @takenAlias before after word split taken =>
    have distinct := fits.aliases
    have free := fits.aliasesFree
    rw [split] at distinct free
    rcases List.mem_append.mp taken with name | earlier
    · exact free word (by simp) name
    · exact (List.nodup_append.mp distinct).2.2 word earlier word List.mem_cons_self rfl

/-! ### The rule that an error tells of -/

/-- A clash with a scope is one with a flag that the scope knows. -/
theorem Scope.Holds.conflict {scope : Scope} {seen : List FlagDecl} {flag : FlagDecl}
    (h : scope.Holds seen) {existing : String}
    (clash : scope.conflict? flag.name flag.shortChar? = some existing) :
    flag.Conflict seen existing := by
  unfold Scope.conflict? at clash
  split at clash
  · next taken =>
    cases clash
    rcases taken with reserved | known
    · exact .reserved reserved
    · obtain ⟨kind, found⟩ := Option.isSome_iff_exists.mp known
      obtain ⟨other, mem, same, -⟩ := (h.names flag.name kind).mp found
      exact .name mem same
  · obtain ⟨short, own, owned⟩ := Option.bind_eq_some_iff.mp clash
    obtain ⟨owner, known, rfl⟩ := Option.map_eq_some_iff.mp owned
    obtain ⟨other, mem, rfl, spelt⟩ := h.owners short owner known
    rw [FlagDecl.shortChar?_eq_some_iff] at own spelt
    rw [← own]
    refine .shorthand mem ?_ (spelt.trans own.symm)
    rw [own, ne_eq, String.ext_iff, String.toList_ofList]
    simp

theorem FlagDecl.fault_of_flagType {seen : List FlagDecl} {flag : FlagDecl} {kind : FlagKind}
    {path : String} {e : BuildError} (typed : flag.flagKind = .ok kind)
    (unread : flag.flagType kind path = .error e) : flag.Fault seen path e := by
  have spelt := FlagDecl.flagKind_eq_ok_iff.mp typed
  unfold FlagDecl.flagType at unread
  cases kind with
  | int =>
    dsimp only at unread
    split at unread
    · cases unread
    · next nonempty =>
      split at unread
      · cases unread
      · next unread' =>
        cases unread
        exact .default spelt nonempty unread'
  | string => cases unread
  | bool => cases unread
  | stringSlice => cases unread

namespace Flags

variable {inherited : Scope} {outer taken : List FlagDecl} {flags : Flags} {path : String}
  {e : BuildError}

/-- A well-formed flag is refused for a rule that it breaks. -/
theorem After.fault_of_add (h : After inherited outer taken flags) {flag : FlagDecl}
    (own : flag.WellFormed) (refused : flags.add path flag = .error e) :
    flag.Fault (outer ++ taken) path e := by
  obtain ⟨kind, typed⟩ := own.flagKind
  rw [add_eq, typed, own.short? path] at refused
  simp only [bind_eq_error_iff, mapError_eq_error_iff, mapError_eq_ok_iff, reduceCtorEq,
    false_and, exists_false, Except.ok.injEq, exists_eq_left', false_or] at refused
  split at refused
  · next existing clash =>
    cases refused
    exact .conflict (h.visible.conflict clash)
  · rcases bind_eq_error_iff.mp refused with default | ⟨_, -, ⟨⟩⟩
    exact FlagDecl.fault_of_flagType typed default

/-- Flags are refused for the first of them that breaks a rule. -/
theorem After.fault_of_foldlM (h : After inherited outer taken flags) {decls : List FlagDecl}
    (wf : ∀ flag ∈ outer ++ taken ++ decls, flag.WellFormed)
    (refused : decls.foldlM (fun flags flag => flags.add path flag) flags = .error e) :
    ∃ before flag after, decls = before ++ flag :: after ∧
      flag.Fault (outer ++ taken ++ before) path e := by
  induction decls generalizing taken flags with
  | nil => cases refused
  | cons flag rest ih =>
    have own : flag.WellFormed := wf flag (by simp)
    rw [List.foldlM_cons, bind_eq_error_iff] at refused
    rcases refused with first | ⟨next, added, others⟩
    · refine ⟨[], flag, rest, rfl, ?_⟩
      rw [List.append_nil]
      exact h.fault_of_add own first
    · have seenWf : ∀ flag ∈ outer ++ taken, flag.WellFormed :=
        fun flag mem => wf flag (List.mem_append_left _ mem)
      obtain ⟨before, later, after, rfl, fault⟩ :=
        ih (h.add seenWf own added) (by simpa using wf) others
      exact ⟨flag :: before, later, after, rfl, by simpa using fault⟩

end Flags

/-- The alias that is found to be taken is a name of a sibling or stands among those before it. -/
theorem split_of_takenAlias? {taken words : List String} {word : String}
    (found : takenAlias? taken words = some word) :
    ∃ before after, words = before ++ word :: after ∧ word ∈ taken ++ before := by
  induction words generalizing taken with
  | nil => cases found
  | cons first rest ih =>
    unfold takenAlias? at found
    by_cases clash : first ∈ taken
    · rw [if_pos clash] at found
      cases found
      exact ⟨[], rest, rfl, List.mem_append_left _ clash⟩
    · rw [if_neg clash] at found
      obtain ⟨before, after, rfl, mem⟩ := ih found
      refine ⟨first :: before, after, rfl, ?_⟩
      rcases List.mem_append.mp mem with known | earlier
      · rcases List.mem_cons.mp known with rfl | known
        · simp
        · exact List.mem_append_left _ known
      · exact List.mem_append_right _ (List.mem_cons_of_mem _ earlier)

/-- Of entries in order of their keys, one with a smaller key stands before. -/
theorem Keyed.Sorted.mem_before {α : Type} {before after : List (String × α)} {key key' : String}
    {value value' : α} (h : Keyed.Sorted (before ++ (key, value) :: after))
    (mem : (key', value') ∈ before ++ (key, value) :: after) (less : key' < key) :
    (key', value') ∈ before := by
  have pairs := List.pairwise_map.mp h
  rcases List.mem_append.mp mem with earlier | others
  · exact earlier
  · exfalso
    rcases List.mem_cons.mp others with same | later
    · cases same
      exact String.lt_irrefl _ less
    · have greater := List.rel_of_pairwise_cons (List.pairwise_append.mp pairs).2.1 later
      exact String.lt_asymm less greater

section Command

variable {registry : Registry} {inherited : Scope} {above : List CommandFields}
  {name path : String} {version? : Option String} {c : CommandDecl} {e : BuildError}

/-- A well-formed command that is not built breaks a rule, and the error tells of it. -/
theorem fault_of_buildOwn (h : inherited.Inherits above) (own : c.toCommandFields.WellFormed)
    (failed : (buildOwn registry c.toCommandFields name path inherited version?
      c.commands).result = .error e) : c.Fault registry above path e := by
  obtain ⟨arity, resolved⟩ := own.arity
  rcases buildOwn_eq_error_iff.mp failed with
    ⟨cause, unresolved, -⟩ |
    ⟨arity', resolved', flags | ⟨taken, -, unbound | ⟨binding?, -, refused⟩⟩⟩
  · rw [resolved] at unresolved
    cases unresolved
  · have wf := h.flags_wellFormed own
    obtain ⟨before, flag, after, split, fault⟩ :=
      (Flags.After.start h.holds).fault_of_foldlM (by simpa using wf) flags
    exact .flag split (by simpa using fault)
  · obtain ⟨bound, ⟨missing, rfl⟩ | ⟨handler, registered, action, words, rfl⟩⟩ :=
      CommandFields.binding?_eq_error_iff.mp unbound
    · exact .unregistered bound missing
    · exact .misfit bound registered action resolved' words
  · unfold checkAliases at refused
    split at refused
    · next word found =>
      cases refused
      obtain ⟨before, after, split, taken⟩ := split_of_takenAlias? found
      exact .takenAlias split taken
    · cases refused

/-! ### The first command at fault -/

/-- A command below some others whose error is that of the first command that does not fit, in the
order of the keys that lead to the commands. -/
theorem first_fault_of_buildNode (wf : c.WellFormed) (ordered : c.Ordered)
    (h : inherited.Inherits above)
    (failed : buildNode registry inherited name path version? c = .error e) :
    ∃ keys between names d, c.LeadsAt keys between names d ∧
      d.Fault registry (above ++ between) (pathFrom path names) e ∧
      ∀ keys' between' names' d', c.LeadsAt keys' between' names' d' → keys' < keys →
        d'.Fits registry (above ++ between') := by
  induction c using CommandDecl.induction generalizing inherited above name path version? with
  | step fields commands ih =>
    obtain ⟨⟨own, -⟩, below⟩ := CommandDecl.wellFormed_iff.mp wf
    obtain ⟨sorted, orderedBelow⟩ := CommandDecl.ordered_iff.mp ordered
    rcases buildNode_eq_error_iff.mp failed with top | ⟨built, ok, others⟩
    · refine ⟨[], [], [], ⟨fields, commands⟩, .here _, ?_, fun keys' _ _ _ _ less => ?_⟩
      · rw [List.append_nil]
        exact fault_of_buildOwn h own top
      · exact absurd less (List.not_lt_nil keys')
    · have fits := (isOk_buildOwn_iff (c := ⟨fields, commands⟩) h own).mp ⟨built, ok⟩
      have handed := h.inheritable (c := ⟨fields, commands⟩) own ok
      obtain ⟨before, key, child, after, split, builtBefore, failed⟩ := failed_of_buildBelow others
      replace split : commands = before ++ (key, child) :: after := split
      have entry : (key, child) ∈ commands := by
        rw [split]
        simp
      obtain ⟨keys, between, names, d, leads, fault, earlier⟩ :=
        ih (key, child) entry (below key child entry) (orderedBelow _ entry) handed failed
      rw [List.append_assoc] at fault
      refine ⟨key :: keys, fields :: between, child.nameOr key :: names, d, .down entry leads,
        fault, ?_⟩
      intro keys' between' names' d' leads' before'
      cases leads' with
      | here =>
        rw [List.append_nil]
        exact fits
      | @down _ key' child' keys' between' names' _ entry' leads' =>
        rw [List.append_cons]
        rcases List.cons_lt_cons_iff.mp before' with less | ⟨same, less⟩
        · -- The commands that stand before the one that failed were built.
          have mem : (key', child') ∈ before := by
            rw [split] at sorted
            exact sorted.mem_before (split ▸ entry') less
          have all := (isOk_buildNode_iff (below key' child' entry') handed).mp
            (builtBefore _ mem)
          exact all between' names' d' leads'.leads
        · subst same
          have distinct := sorted.nodup
          have found := (Keyed.find?_eq_some_iff_mem distinct).mpr entry'
          rw [(Keyed.find?_eq_some_iff_mem distinct).mpr entry] at found
          cases found
          exact earlier keys' between' names' d' leads' less

end Command

/-- A valid tool whose maps of commands are in order of their keys is kept from being built by one
command. The error names the path of that command and tells of a rule that the command breaks: a
flag that clashes or whose default is no integer, a function that is not registered or takes no
words, or an alias that is taken. Every command that smaller keys lead to, which is every command
that is built before, fits. -/
theorem fault_of_build {tool : ToolDecl} {registry : Registry} {e : BuildError}
    (ordered : tool.tree.Ordered) (valid : tool.problems = [])
    (failed : (tool.build registry).result = .error e) :
    ∃ keys above names c, tool.tree.LeadsAt keys above names c ∧
      c.Fault registry above (pathFrom tool.rootName names) e ∧ ¬ c.Fits registry above ∧
      ∀ keys' above' names' c', tool.tree.LeadsAt keys' above' names' c' → keys' < keys →
        c'.Fits registry above' := by
  have wf := ToolDecl.problems_eq_nil_iff.mp valid
  rcases build_eq_error_cases failed with ⟨problems, -⟩ | ⟨-, failed⟩
  · exact absurd valid problems
  · obtain ⟨keys, above, names, c, leads, fault, earlier⟩ :=
      first_fault_of_buildNode wf.commands ordered Scope.Inherits.empty failed
    exact ⟨keys, above, names, c, leads, fault, fault.unfit, earlier⟩

/-- A tool with a flag that clashes with one of the root, below a command that fits and before one
whose function is missing. -/
def kitTool : ToolDecl where
  name := "kit"
  root := {
    useLine := "kit"
    summary := "Use a kit"
    flags := [{ FlagDecl.ofKind "dry" .bool "Do nothing" with
      shorthand := "d", persistent := true }] }
  commands := [
    ("a", {
      useLine := "saw"
      summary := "Use a saw"
      commands := [("z", {
        useLine := "cut <board>"
        summary := "Cut a board"
        flags := [{ FlagDecl.ofKind "depth" .int "How deep" with shorthand := "d" }] })] }),
    ("b", { useLine := "hold", summary := "Hold a board", handler := "hold" })]

theorem fault_of_build_kit :
    ∃ keys above names c, kitTool.tree.LeadsAt keys above names c ∧
      c.Fault (.ofList []) above (pathFrom "kit" names)
        (.flagConflict "kit saw cut" "depth" "-d (--dry)") ∧
      ∀ keys' above' names' c', kitTool.tree.LeadsAt keys' above' names' c' → keys' < keys →
        c'.Fits (.ofList []) above' := by
  have ordered : kitTool.tree.Ordered := by
    refine CommandDecl.ordered_iff.mpr ⟨?_, ?_⟩
    · have keys : (["a", "b"] : List String).Pairwise (· < ·) := by decide
      exact keys
    · simp [kitTool, Keyed.Sorted, Keyed.keys]
  have valid : kitTool.problems = [] := by rfl
  have failed : (kitTool.build (.ofList [])).result =
      .error (.flagConflict "kit saw cut" "depth" "-d (--dry)") := by rfl
  obtain ⟨keys, above, names, c, leads, fault, -, earlier⟩ := fault_of_build ordered valid failed
  exact ⟨keys, above, names, c, leads, fault, earlier⟩

end ToolTree
