import ToolTree.Proofs.Collecting
import ToolTree.Proofs.FunctionNames
import ToolTree.Source.Entry

/-!
The two generators of source text, side by side.

Both go through the collected functions and write the name of each. In a valid tool nothing else can
be refused (`Stub.ofSpec_eq_error_iff`), so both refuse a tool for the same reason
(`Source.Refuses`). Where they do not, both write the same names, since a function is written in one
way (`Source.identifiers_eq_names`).
-/

namespace ToolTree

/-! ### One function -/

namespace HandlerSpec

/-- The rule on the words of a function and the types of its flags are known. -/
structure Resolved (spec : HandlerSpec) : Prop where
  arity : ∃ rule, spec.arity = .ok rule
  kinds : ∃ kinds, spec.flags.mapM spec.flagKind = .ok kinds

variable {spec : HandlerSpec}

theorem functionName_eq_ok_iff {name : String} :
    spec.functionName = .ok name ↔ Source.WrittenAs spec.name name := by
  rw [← Source.functionName?_eq_some_iff, functionName]
  cases Source.functionName? spec.name <;> simp

theorem functionName_eq_error_iff {e : GenerateError} :
    spec.functionName = .error e ↔
      (∀ name, ¬ Source.WrittenAs spec.name name) ∧
        e = .invalidFunctionName spec.path spec.name := by
  rw [← Source.functionName?_eq_none_iff, functionName]
  cases Source.functionName? spec.name <;> simp [eq_comm]

end HandlerSpec

/-- The rule of a description is that of the command that gives it. -/
theorem arity_eq_ok_iff {spec : HandlerSpec} {command : CommandFields}
    (same : spec.args = command.args) {rule : Arity} :
    spec.arity = .ok rule ↔ command.arity = .ok rule := by
  unfold HandlerSpec.arity CommandFields.arity
  rw [same]
  cases command.args with
  | none => simp
  | some args => cases resolved : args.arity <;> simp [resolved]

/-- What is collected of a well-formed command can be resolved. -/
theorem resolved_of_wellFormed {command : CommandFields} (wf : command.WellFormed) (path : String) :
    HandlerSpec.Resolved ⟨command.handler, path, command.useLine, command.summary, command.flags,
      command.args⟩ := by
  constructor
  · obtain ⟨rule, resolved⟩ := wf.arity
    exact ⟨rule, (arity_eq_ok_iff rfl).mpr resolved⟩
  · simp only [mapM_eq_ok_iff, exists_forall₂_iff]
    intro flag mem
    obtain ⟨kind, typed⟩ := (wf.flags flag mem).flagKind
    exact ⟨kind, by rw [HandlerSpec.flagKind, typed]⟩

namespace Source

theorem Stub.ofSpec_eq_error_iff {spec : HandlerSpec} (resolved : spec.Resolved)
    {e : GenerateError} : Stub.ofSpec spec = .error e ↔ spec.functionName = .error e := by
  obtain ⟨rule, arity⟩ := resolved.arity
  obtain ⟨kinds, typed⟩ := resolved.kinds
  simp only [Stub.ofSpec, arity, typed, bind_eq_error_iff, pure_ne_error, reduceCtorEq, and_false,
    exists_false, or_false]

theorem Stub.name_of_ofSpec {spec : HandlerSpec} {stub : Stub} (ok : Stub.ofSpec spec = .ok stub) :
    spec.functionName = .ok stub.name := by
  simp only [Stub.ofSpec, bind_eq_ok_iff, pure_eq_ok_iff] at ok
  obtain ⟨name, named, rule, -, kinds, -, rfl⟩ := ok
  exact named

/-- A description has a line feed only where the use line or the summary has one. -/
theorem Stub.feed_notMem_describe {spec : HandlerSpec} (use : '\n' ∉ spec.useLine.toList)
    (summary : '\n' ∉ spec.summary.toList) : '\n' ∉ (describe spec).toList := by
  unfold describe
  split
  · simpa [toString] using use
  · simpa [toString] using ⟨use, summary⟩

theorem Registration.ofSpec_eq_ok_iff {spec : HandlerSpec} {r : Registration} :
    Registration.ofSpec spec = .ok r ↔
      spec.functionName = .ok r.identifier ∧ r.name = spec.name := by
  simp only [Registration.ofSpec, bind_eq_ok_iff, pure_eq_ok_iff]
  constructor
  · rintro ⟨name, named, rfl⟩
    exact ⟨named, rfl⟩
  · rintro ⟨named, same⟩
    exact ⟨r.identifier, named, by rw [← same]⟩

theorem Registration.ofSpec_eq_error_iff {spec : HandlerSpec} {e : GenerateError} :
    Registration.ofSpec spec = .error e ↔ spec.functionName = .error e := by
  simp only [Registration.ofSpec, bind_eq_error_iff, pure_ne_error, and_false, exists_false,
    or_false]

/-! ### All functions -/

theorem result_stubs (specs : List HandlerSpec) :
    (stubs specs).result = specs.mapM Stub.ofSpec := by
  induction specs with
  | nil => rfl
  | cons spec rest ih =>
    simp only [stubs, Traced.result_bind, Traced.result_ofExcept, Traced.result_report,
      Traced.result_pure, ih, List.mapM_cons]
    rfl

/-- Names that a module can have: plain identifiers other than `main`. -/
def IsModuleName (moduleName : String) : Prop :=
  IsPlainIdentifier moduleName ∧ moduleName ≠ "main"

theorem checkModule_eq_ok_iff {moduleName : String} {done : Unit} :
    checkModule moduleName = .ok done ↔ IsModuleName moduleName := by
  unfold checkModule IsModuleName
  rw [← isIdentifier_eq_true_iff]
  split
  · next proper => simpa using proper
  · next improper => simpa using improper

theorem checkModule_eq_error_iff {moduleName : String} {e : GenerateError} :
    checkModule moduleName = .error e ↔
      ¬ IsModuleName moduleName ∧ e = .invalidModule moduleName := by
  have proper : checkModule moduleName = .ok () ↔ IsModuleName moduleName :=
    checkModule_eq_ok_iff
  rw [← proper]
  unfold checkModule
  split
  · simp
  · simp [eq_comm]

section Module

variable {tool : ToolDecl} {moduleName : String}

theorem result_moduleSpecs (tool : ToolDecl) (moduleName : String) :
    (moduleSpecs tool moduleName).result = checkModule moduleName >>= fun _ =>
      if tool.handlerSpecs = [] then .error .noFunctions else .ok tool.handlerSpecs := by
  unfold moduleSpecs
  rw [Traced.result_bind, Traced.result_ofExcept]
  refine congrArg (checkModule moduleName >>= ·) (funext fun _ => ?_)
  rw [Traced.result_bind]
  cases none : tool.handlerSpecs with
  | nil => rfl
  | cons spec rest => rfl

theorem moduleSpecs_eq_ok_iff {specs : List HandlerSpec} :
    (moduleSpecs tool moduleName).result = .ok specs ↔
      IsModuleName moduleName ∧ tool.handlerSpecs ≠ [] ∧ specs = tool.handlerSpecs := by
  simp only [result_moduleSpecs, bind_eq_ok_iff, checkModule_eq_ok_iff, exists_and_left,
    exists_const]
  refine and_congr_right fun _ => ?_
  by_cases none : tool.handlerSpecs = []
  · simp [none]
  · simp [none, @eq_comm _ specs]

theorem moduleSpecs_eq_error_iff {e : GenerateError} :
    (moduleSpecs tool moduleName).result = .error e ↔
      (¬ IsModuleName moduleName ∧ e = .invalidModule moduleName) ∨
        (IsModuleName moduleName ∧ tool.handlerSpecs = [] ∧ e = .noFunctions) := by
  simp only [result_moduleSpecs, bind_eq_error_iff, checkModule_eq_error_iff,
    checkModule_eq_ok_iff, exists_and_left, exists_const]
  refine or_congr_right (and_congr_right fun _ => ?_)
  by_cases none : tool.handlerSpecs = []
  · simp [none, @eq_comm _ e]
  · simp [none]

/-! ### Both generators -/

theorem handlerModule_eq_ok_iff {text : String} :
    (handlerModule tool moduleName).result = .ok text ↔
      ∃ specs, (moduleSpecs tool moduleName).result = .ok specs ∧
        ∃ stubs, specs.mapM Stub.ofSpec = .ok stubs ∧
          text = Text.unlines (moduleHeader tool) ++
            String.join (stubs.map fun s => "\n" ++ s.render) := by
  simp only [handlerModule, Traced.result_bind, Traced.result_report, Traced.result_pure,
    result_stubs, bind_eq_ok_iff, Except.ok.injEq, exists_const, true_and, @eq_comm _ _ text]

theorem unlines_stubs (header : List String) (stubs : List Stub) :
    Text.unlines header ++ String.join (stubs.map fun s => "\n" ++ s.render) =
      Text.unlines (header ++ stubs.flatMap fun s => "" :: s.lines) := by
  rw [Text.unlines_append]
  congr 1
  induction stubs with
  | nil => rfl
  | cons stub rest ih =>
    rw [List.map_cons, String.join_cons, ih, List.flatMap_cons, Text.unlines_append,
      Text.unlines_cons]
    rfl

theorem handlerModule_eq_error_iff {e : GenerateError} :
    (handlerModule tool moduleName).result = .error e ↔
      (moduleSpecs tool moduleName).result = .error e ∨
        ∃ specs, (moduleSpecs tool moduleName).result = .ok specs ∧
          specs.mapM Stub.ofSpec = .error e := by
  simp only [handlerModule, Traced.result_bind, Traced.result_report, Traced.result_pure,
    result_stubs, bind_eq_error_iff, reduceCtorEq, and_false, exists_false, or_false]

variable {configFile : String}

theorem entryPoint_eq_ok_iff {text : String} :
    (entryPoint tool moduleName configFile).result = .ok text ↔
      ∃ specs, (moduleSpecs tool moduleName).result = .ok specs ∧
        ∃ registrations, specs.mapM Registration.ofSpec = .ok registrations ∧
          text = Text.unlines (entryLines tool moduleName configFile registrations) := by
  simp only [entryPoint, Traced.result_bind, Traced.result_report, Traced.result_pure,
    Traced.result_ofExcept, bind_eq_ok_iff, Except.ok.injEq, exists_const, true_and,
    @eq_comm _ _ text]

theorem entryPoint_eq_error_iff {e : GenerateError} :
    (entryPoint tool moduleName configFile).result = .error e ↔
      (moduleSpecs tool moduleName).result = .error e ∨
        ∃ specs, (moduleSpecs tool moduleName).result = .ok specs ∧
          specs.mapM Registration.ofSpec = .error e := by
  simp only [entryPoint, Traced.result_bind, Traced.result_report, Traced.result_pure,
    Traced.result_ofExcept, bind_eq_error_iff, reduceCtorEq, and_false, exists_false, or_false]

end Module

/-- Why source text is refused: the module cannot have its name, no command has a function, or
the first collected function whose text cannot be written as a name. -/
inductive Refuses (tool : ToolDecl) (moduleName : String) : GenerateError → Prop where
  | module : ¬ IsModuleName moduleName → Refuses tool moduleName (.invalidModule moduleName)
  | empty : IsModuleName moduleName →
      (∀ above names c, tool.tree.Leads above names c → c.handler = "") →
      Refuses tool moduleName .noFunctions
  | name {before after : List HandlerSpec} {spec : HandlerSpec} : IsModuleName moduleName →
      tool.handlerSpecs = before ++ spec :: after →
      (∀ earlier ∈ before, ∃ name, WrittenAs earlier.name name) →
      (∀ name, ¬ WrittenAs spec.name name) →
      Refuses tool moduleName (.invalidFunctionName spec.path spec.name)

section Valid

variable {tool : ToolDecl} {moduleName : String}

theorem handlerSpecs_eq_nil_iff : tool.handlerSpecs = [] ↔
    ∀ above names c, tool.tree.Leads above names c → c.handler = "" := by
  constructor
  · intro none above names c leads
    by_cases named : c.handler = ""
    · exact named
    · have collected : c.handler ∈ tool.handlerSpecs.map HandlerSpec.name :=
        mem_collected_iff.mpr ⟨named, above, names, c, leads, rfl⟩
      rw [none] at collected
      cases collected
  · intro unnamed
    refine List.eq_nil_iff_forall_not_mem.mpr fun spec mem => ?_
    obtain ⟨named, above, names, c, leads, rfl⟩ := described_of_mem mem
    exact named (unnamed above names c leads)

theorem refuses_iff {e : GenerateError} : Refuses tool moduleName e ↔
    (moduleSpecs tool moduleName).result = .error e ∨
      ∃ specs, (moduleSpecs tool moduleName).result = .ok specs ∧
        specs.mapM HandlerSpec.functionName = .error e := by
  simp only [moduleSpecs_eq_error_iff, moduleSpecs_eq_ok_iff, mapM_eq_error_iff,
    HandlerSpec.functionName_eq_ok_iff, HandlerSpec.functionName_eq_error_iff]
  constructor
  · intro refuses
    cases refuses with
    | module improper => exact .inl (.inl ⟨improper, rfl⟩)
    | empty proper unnamed =>
      exact .inl (.inr ⟨proper, handlerSpecs_eq_nil_iff.mpr unnamed, rfl⟩)
    | @name before after spec proper split earlier unwritten =>
      refine .inr ⟨_, ⟨proper, ?_, rfl⟩, before, spec, after, split, earlier, unwritten, rfl⟩
      rw [split]
      simp
  · rintro ((⟨improper, rfl⟩ | ⟨proper, none, rfl⟩) |
      ⟨_, ⟨proper, -, rfl⟩, before, spec, after, split, earlier, unwritten, rfl⟩)
    · exact .module improper
    · exact .empty proper (handlerSpecs_eq_nil_iff.mp none)
    · exact .name proper split earlier unwritten

theorem resolved_of_mem (valid : tool.problems = []) {spec : HandlerSpec}
    (mem : spec ∈ tool.handlerSpecs) : spec.Resolved := by
  obtain ⟨-, above, names, c, leads, rfl⟩ := described_of_mem mem
  have wf := ToolDecl.problems_eq_nil_iff.mp valid
  exact resolved_of_wellFormed (wf.commands above names c leads).1 _

theorem handlerModule_refused_iff (valid : tool.problems = []) {e : GenerateError} :
    (handlerModule tool moduleName).result = .error e ↔ Refuses tool moduleName e := by
  rw [handlerModule_eq_error_iff, refuses_iff]
  refine or_congr_right (exists_congr fun specs => and_congr_right fun ok => ?_)
  obtain ⟨-, -, rfl⟩ := moduleSpecs_eq_ok_iff.mp ok
  exact mapM_eq_error_congr fun spec mem e => Stub.ofSpec_eq_error_iff (resolved_of_mem valid mem)

theorem entryPoint_refused_iff {configFile : String} {e : GenerateError} :
    (entryPoint tool moduleName configFile).result = .error e ↔ Refuses tool moduleName e := by
  rw [entryPoint_eq_error_iff, refuses_iff]
  refine or_congr_right (exists_congr fun specs => and_congr_right fun _ => ?_)
  exact mapM_eq_error_congr fun spec _ e => Registration.ofSpec_eq_error_iff

end Valid

section Functions

variable {specs : List HandlerSpec} {stubs : List Stub} {registrations : List Registration}

theorem writtenAs_of_stubs (defined : specs.mapM Stub.ofSpec = .ok stubs) :
    List.Forall₂ WrittenAs (specs.map HandlerSpec.name) (stubs.map Stub.name) := by
  rw [List.forall₂_map_left_iff, List.forall₂_map_right_iff]
  refine (mapM_eq_ok_iff.mp defined).imp fun spec stub ok => ?_
  exact HandlerSpec.functionName_eq_ok_iff.mp (Stub.name_of_ofSpec ok)

theorem writtenAs_of_registrations
    (registered : specs.mapM Registration.ofSpec = .ok registrations) :
    List.Forall₂ WrittenAs (specs.map HandlerSpec.name)
      (registrations.map Registration.identifier) := by
  rw [List.forall₂_map_left_iff, List.forall₂_map_right_iff]
  refine (mapM_eq_ok_iff.mp registered).imp fun spec r ok => ?_
  exact HandlerSpec.functionName_eq_ok_iff.mp (Registration.ofSpec_eq_ok_iff.mp ok).1

/-- What is registered is what is defined, in the same order. -/
theorem identifiers_eq_names (defined : specs.mapM Stub.ofSpec = .ok stubs)
    (registered : specs.mapM Registration.ofSpec = .ok registrations) :
    registrations.map Registration.identifier = stubs.map Stub.name :=
  List.right_unique_forall₂' biUnique_writtenAs.2 (writtenAs_of_registrations registered)
    (writtenAs_of_stubs defined)

/-- Functions with different names are written by different names. -/
theorem nodup_of_writtenAs {texts names : List String}
    (written : List.Forall₂ WrittenAs texts names) (distinct : texts.Nodup) : names.Nodup :=
  (List.rel_nodup biUnique_writtenAs written).mp distinct

theorem writtenAs_of_mem (registered : specs.mapM Registration.ofSpec = .ok registrations)
    {r : Registration} (mem : r ∈ registrations) : WrittenAs r.name r.identifier := by
  obtain ⟨spec, -, ok⟩ := (exists_mem_of_forall₂ (mapM_eq_ok_iff.mp registered)).2 r mem
  obtain ⟨named, same⟩ := Registration.ofSpec_eq_ok_iff.mp ok
  rw [same]
  exact HandlerSpec.functionName_eq_ok_iff.mp named

end Functions

end Source

end ToolTree
