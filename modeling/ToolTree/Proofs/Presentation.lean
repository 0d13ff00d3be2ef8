import ToolTree.Proofs.Alike

/-!
Presentation.

What only shows — whether a command or a flag is hidden, the texts about it, the hint behind the
name in a use line — reaches the grammar of a command and nothing else of it than what is shown.
`ToolDecl.bare` strips a tool of it. Two tools that are equal without it are built side by side,
step by step, to equal nodes and to grammars that resemble each other, or fail alike; and lines are
read alike against grammars that resemble each other. So the two trees call the same functions and
refuse the same lines (`presentation_unobserved`).

Errors of usage tell of the usage of a command, and what is hidden is left out there. Of a line that
the parser refuses only the kind of the error is the same, since its text is not kept. An unknown
command has its usage behind the message. The message itself says nothing of it, unless an escape
character in a word swallows the end of the message: then the usage is shown in its place
(`messages_of_porch`).
-/

namespace ToolTree

open CommandLine (Argument Chain FlagType Grammar Head Level View)

/-! ### Without presentation -/

/-- A flag without what is only shown of it. -/
def FlagDecl.bare (flag : FlagDecl) : FlagDecl :=
  { flag with usage := "", hidden := false }

/-- What a command says of itself, without what is only shown. -/
def CommandFields.bare (command : CommandFields) : CommandFields :=
  { command with
    useLine := UseLine.name command.useLine
    summary := ""
    details := ""
    flags := command.flags.map FlagDecl.bare
    hidden := false }

mutual

/-- A command without what is only shown of it and of those below it. -/
def CommandDecl.bare : CommandDecl → CommandDecl
  | ⟨fields, commands⟩ => ⟨fields.bare, bareBelow commands⟩

/-- Commands without what is only shown of them. -/
def bareBelow : List (String × CommandDecl) → List (String × CommandDecl)
  | [] => []
  | (key, command) :: rest => (key, command.bare) :: bareBelow rest

end

/-- A tool without what is only shown of it. -/
def ToolDecl.bare (tool : ToolDecl) : ToolDecl :=
  { tool with
    description := ""
    root := tool.root.bare
    commands := bareBelow tool.commands }

theorem bareBelow_eq_map (commands : List (String × CommandDecl)) :
    bareBelow commands = commands.map fun (key, command) => (key, command.bare) := by
  induction commands with
  | nil => rfl
  | cons entry rest ih => rw [bareBelow, ih, List.map_cons]

theorem FlagDecl.exists_of_bare_eq {flag flag' : FlagDecl} (same : flag.bare = flag'.bare) :
    ∃ usage hidden, flag' = { flag with usage, hidden } := by
  obtain ⟨name, shorthand, kind, defaultText, usage, required, persistent, hidden⟩ := flag
  obtain ⟨name', shorthand', kind', defaultText', usage', required', persistent', hidden'⟩ := flag'
  simp only [FlagDecl.bare, FlagDecl.mk.injEq, true_and, and_true] at same
  obtain ⟨rfl, rfl, rfl, rfl, rfl, rfl⟩ := same
  exact ⟨usage', hidden', rfl⟩

/-- Two commands are equal without presentation when what they say of themselves is, and the
commands below them are, each under its key. -/
theorem CommandDecl.bare_eq_iff {c c' : CommandDecl} :
    c.bare = c'.bare ↔ c.toCommandFields.bare = c'.toCommandFields.bare ∧
      List.Forall₂ (fun entry entry' : String × CommandDecl =>
        entry.1 = entry'.1 ∧ entry.2.bare = entry'.2.bare) c.commands c'.commands := by
  obtain ⟨fields, commands⟩ := c
  obtain ⟨fields', commands'⟩ := c'
  have below : bareBelow commands = bareBelow commands' ↔
      List.Forall₂ (fun entry entry' : String × CommandDecl =>
        entry.1 = entry'.1 ∧ entry.2.bare = entry'.2.bare) commands commands' := by
    rw [bareBelow_eq_map, bareBelow_eq_map, ← List.forall₂_eq_eq_eq, List.forall₂_map_left_iff,
      List.forall₂_map_right_iff]
    simp only [Prod.mk.injEq]
  simp only [CommandDecl.bare, CommandDecl.mk.injEq, below]

/-- What the program looks at besides presentation. -/
theorem CommandFields.of_bare_eq {command command' : CommandFields}
    (same : command.bare = command'.bare) :
    UseLine.name command.useLine = UseLine.name command'.useLine ∧
      command.aliases = command'.aliases ∧ command.args = command'.args ∧
      command.handler = command'.handler ∧
      List.Forall₂ (fun flag flag' : FlagDecl => flag.bare = flag'.bare) command.flags
        command'.flags := by
  simp only [CommandFields.bare, CommandFields.mk.injEq, true_and, and_true] at same
  obtain ⟨name, aliases, args, handler, flags⟩ := same
  exact ⟨name, aliases, args, handler, forall₂_of_map_eq flags⟩

/-! ### One command, side by side -/

/-- Flags with the same scopes, whose arguments differ in presentation. -/
structure Flags.Alike (flags flags' : Flags) : Prop where
  visible : flags.visible = flags'.visible
  inheritable : flags.inheritable = flags'.inheritable
  arguments : flags.arguments.map Argument.bare = flags'.arguments.map Argument.bare

theorem Flags.Alike.length_eq {flags flags' : Flags} (h : flags.Alike flags') :
    flags.arguments.length = flags'.arguments.length := by
  have lengths := congrArg List.length h.arguments
  rwa [List.length_map, List.length_map] at lengths

theorem Flags.Alike.add {flags flags' : Flags} (h : flags.Alike flags') {flag flag' : FlagDecl}
    (same : flag.bare = flag'.bare) (path : String) :
    Agree Flags.Alike (flags.add path flag) (flags'.add path flag') := by
  obtain ⟨usage, hidden, rfl⟩ := FlagDecl.exists_of_bare_eq same
  rw [Flags.add_eq, Flags.add_eq]
  refine Agree.bind_same fun kind => Agree.bind_same fun short? => ?_
  rw [← h.visible]
  dsimp only
  cases flags.visible.conflict? flag.name short? with
  | some existing => exact .error _
  | none =>
    refine Agree.bind_same (x := flag.flagType kind path) fun type => .ok ⟨rfl, ?_, ?_⟩
    · rw [← h.inheritable]
      rfl
    · rw [List.map_append, List.map_append, h.arguments, h.length_eq]
      rfl

theorem Flags.ofDecls_alike (inherited : Scope) (path : String) {decls decls' : List FlagDecl}
    (same : List.Forall₂ (fun flag flag' : FlagDecl => flag.bare = flag'.bare) decls decls') :
    Agree Flags.Alike (Flags.ofDecls inherited path decls) (Flags.ofDecls inherited path decls') :=
  Agree.foldlM same (fun _ _ _ _ flags flag => flags.add flag path) ⟨rfl, rfl, rfl⟩

theorem commandArguments_alike (fields fields' : CommandFields) (arity : Arity)
    {flags flags' : Flags} (alike : flags.Alike flags') (versioned : Bool) :
    (commandArguments fields arity flags versioned).map Argument.bare =
      (commandArguments fields' arity flags' versioned).map Argument.bare := by
  have words : (wordsArgument fields arity).bare = (wordsArgument fields' arity).bare := by
    simp only [Argument.bare, wordsArgument]
  simp only [commandArguments, alike.visible, alike.length_eq, List.map_append, alike.arguments,
    List.map_cons, words]

/-- What a grammar says of a command, without what is only shown. -/
def CommandLine.Head.bare (head : Head) : Head :=
  { head with
    about := ""
    longAbout? := none
    hidden := false
    usage? := none
    arguments := head.arguments.map Argument.bare }

/-- Commands that are built but for the commands below, and that differ in presentation. -/
structure Built.Alike (own own' : Built) : Prop where
  head : own.head.bare = own'.head.bare
  node : own.node = own'.node
  inheritable : own.inheritable = own'.inheritable

section Own

variable {fields fields' : CommandFields} (same : fields.bare = fields'.bare)
include same

theorem CommandFields.nameOr_congr (key : String) : fields.nameOr key = fields'.nameOr key := by
  obtain ⟨name, -⟩ := CommandFields.of_bare_eq same
  rw [nameOr, nameOr, name]

theorem CommandFields.arity_congr : fields.arity = fields'.arity := by
  obtain ⟨-, -, args, -⟩ := CommandFields.of_bare_eq same
  rw [arity, arity, args]

theorem CommandFields.binding?_congr (registry : Registry) (path : String) (arity : Arity) :
    fields.binding? registry path arity = fields'.binding? registry path arity := by
  obtain ⟨-, -, -, handler, -⟩ := CommandFields.of_bare_eq same
  rw [binding?, binding?, handler]

/-- A command but for those below it is built alike. -/
theorem buildOwn_alike {registry : Registry} {name path : String} {inherited : Scope}
    {version? : Option String} {commands commands' : List (String × CommandDecl)}
    (names : siblingNames commands = siblingNames commands')
    (aliases : siblingAliases commands = siblingAliases commands') :
    Agree Built.Alike (buildOwn registry fields name path inherited version? commands).result
      (buildOwn registry fields' name path inherited version? commands').result := by
  obtain ⟨-, ownAliases, -, -, flags⟩ := CommandFields.of_bare_eq same
  have free : checkAliases path commands = checkAliases path commands' := by
    rw [checkAliases, checkAliases, names, aliases]
  simp only [buildOwn, Traced.result_bind, Traced.result_ofExcept, Traced.result_reportAll,
    Traced.result_pure, CommandFields.arity_congr same, CommandFields.binding?_congr same, free]
  refine Agree.bind_same fun arity => ?_
  refine (Flags.ofDecls_alike inherited path flags).bind fun taken taken' alike => ?_
  refine Agree.bind_same fun binding? => Agree.bind_same fun _ => Agree.bind_same fun _ => ?_
  refine .ok ⟨?_, ?_, alike.inheritable⟩
  · simp only [CommandLine.Head.bare, ownParts, ownAliases, names, aliases,
      commandArguments_alike fields fields' arity alike]
  · simp only [ownParts, alike.visible, alike.inheritable]

end Own

/-! ### Trees, side by side -/

/-- Two grammars that differ in presentation. -/
inductive CommandLine.Grammar.Resembles : Grammar → Grammar → Prop where
  | mk {head head' : Head} {commands commands' : List Grammar} :
      head.bare = head'.bare → List.Forall₂ Resembles commands commands' →
      Resembles ⟨head, commands⟩ ⟨head', commands'⟩

namespace CommandLine.Grammar.Resembles

variable {grammar grammar' : Grammar} (h : grammar.Resembles grammar')
include h

theorem head : grammar.toHead.bare = grammar'.toHead.bare := by
  cases h with
  | mk head _ => exact head

theorem commands : List.Forall₂ Resembles grammar.subcommands grammar'.subcommands := by
  cases h with
  | mk _ commands => exact commands

theorem name : grammar.name = grammar'.name :=
  (congrArg Head.name h.head :)

theorem aliases : grammar.aliases = grammar'.aliases :=
  (congrArg Head.aliases h.head :)

theorem arguments : grammar.arguments.map Argument.bare = grammar'.arguments.map Argument.bare :=
  (congrArg Head.arguments h.head :)

end CommandLine.Grammar.Resembles

/-- Built commands with the same nodes, whose grammars differ in presentation. -/
structure BuiltAlike (built built' : Grammar × Node) : Prop where
  grammar : built.1.Resembles built'.1
  node : built.2 = built'.2

theorem Built.Alike.assemble {own own' : Built} (h : own.Alike own')
    {below below' : List (Grammar × Node)} (all : List.Forall₂ BuiltAlike below below') :
    BuiltAlike (own.assemble below) (own'.assemble below') where
  grammar := by
    refine .mk h.head ?_
    rw [List.forall₂_map_left_iff, List.forall₂_map_right_iff]
    exact all.imp fun _ _ alike => alike.grammar
  node := by
    have nodes : below.map (fun built => (built.1.name, built.2)) =
        below'.map fun built => (built.1.name, built.2) :=
      map_eq_of_forall₂ all fun _ _ _ alike => by rw [alike.grammar.name, alike.node]
    have children := congrArg (List.foldl (fun acc (name, node) =>
      Keyed.insert name node acc) []) nodes
    rw [List.foldl_map, List.foldl_map] at children
    simp only [Built.assemble, h.node, children]

/-- Commands that differ in presentation are built alike, or fail alike. -/
theorem buildNode_alike {registry : Registry} {inherited : Scope} {name path : String}
    {version? : Option String} {c c' : CommandDecl} (same : c.bare = c'.bare) :
    Agree BuiltAlike (buildNode registry inherited name path version? c)
      (buildNode registry inherited name path version? c') := by
  induction c using CommandDecl.induction generalizing inherited name path version? c' with
  | step fields commands ih =>
    obtain ⟨fields', commands'⟩ := c'
    obtain ⟨own, below⟩ := CommandDecl.bare_eq_iff.mp same
    dsimp only at own below
    have named : ∀ entry entry' : String × CommandDecl,
        entry.1 = entry'.1 ∧ entry.2.bare = entry'.2.bare →
          entry.2.nameOr entry.1 = entry'.2.nameOr entry'.1 := by
      rintro ⟨key, child⟩ ⟨key', child'⟩ ⟨rfl, same⟩
      exact CommandFields.nameOr_congr (CommandDecl.bare_eq_iff.mp same).1 key
    have names : siblingNames commands = siblingNames commands' :=
      map_eq_of_forall₂ below fun entry _ entry' same => named entry entry' same
    have aliases : siblingAliases commands = siblingAliases commands' := by
      rw [siblingAliases, siblingAliases, List.flatMap_def, List.flatMap_def]
      refine congrArg _ (map_eq_of_forall₂ below fun entry _ entry' same => ?_)
      exact (CommandFields.of_bare_eq (CommandDecl.bare_eq_iff.mp same.2).1).2.1
    -- Commands side by side are built in order, so the first one that fails is the same twice.
    have belowAlike (inheritable : Scope) : Agree (List.Forall₂ BuiltAlike)
        (buildBelow registry inheritable path commands).result
        (buildBelow registry inheritable path commands').result := by
      clear own names aliases same
      induction below with
      | nil => exact .ok .nil
      | @cons entry entry' _ _ same _ ihRest =>
        obtain ⟨first, rest⟩ := List.forall_mem_cons.mp ih
        simp only [buildBelow, Traced.result_bind, Traced.result_pure, result_buildCommand,
          named _ _ same]
        refine (first same.2).bind fun built built' alike => ?_
        exact (ihRest rest).bind fun others others' all => .ok (.cons alike all)
    refine (buildOwn_alike own names aliases).bind fun built built' alike => ?_
    rw [alike.inheritable]
    exact (belowAlike built'.inheritable).bind fun _ _ all => .ok (alike.assemble all)

theorem result_buildValid (tool : ToolDecl) (registry : Registry) :
    (tool.buildValid registry).result =
      (buildNode registry {} tool.rootName tool.rootName tool.version? tool.tree).map
        fun (grammar, node) => ⟨grammar, node⟩ := by
  simp only [ToolDecl.buildValid, Traced.result_bind, Traced.result_report, Traced.result_pure,
    buildNode, ToolDecl.tree, ToolDecl.version?]
  generalize (buildOwn _ _ _ _ _ _ _).result = built
  cases built with
  | error e => rfl
  | ok own =>
    cases below : (buildBelow registry own.inheritable tool.rootName tool.commands).result with
    | error e => simp only [Bind.bind, Except.bind, Except.map, below]
    | ok others =>
      simp only [Bind.bind, Except.bind, Except.map, below]
      rfl

/-- What the program looks at besides presentation. -/
theorem ToolDecl.of_bare_eq {tool tool' : ToolDecl} (same : tool.bare = tool'.bare) :
    tool.rootName = tool'.rootName ∧ tool.version? = tool'.version? ∧
      tool.tree.bare = tool'.tree.bare := by
  simp only [bare, ToolDecl.mk.injEq, true_and] at same
  obtain ⟨name, version, root, commands⟩ := same
  have fields := (CommandDecl.bare_eq_iff.mp root).1
  refine ⟨?_, ?_, ?_⟩
  · rw [rootName, rootName, name, CommandFields.nameOr_congr fields]
  · rw [version?, version?, version]
  · simp only [tree, CommandDecl.bare, fields, commands]

/-- Tools that differ in presentation are built to trees with the same nodes and grammars that
differ in presentation, or fail alike. -/
theorem build_alike {tool tool' : ToolDecl} (valid : tool.Valid) (valid' : tool'.Valid)
    (same : tool.bare = tool'.bare) (registry : Registry) :
    Agree (fun tree tree' : Tree =>
        tree.grammar.Resembles tree'.grammar ∧ tree.root = tree'.root)
      (tool.build registry).result (tool'.build registry).result := by
  obtain ⟨rootName, versions, trees⟩ := ToolDecl.of_bare_eq same
  have built : ∀ {tool : ToolDecl}, tool.Valid → (tool.build registry).result =
      (buildNode registry {} tool.rootName tool.rootName tool.version? tool.tree).map
        fun (grammar, node) => ⟨grammar, node⟩ := by
    intro tool valid
    rw [← result_buildValid, ToolDecl.build, if_pos (List.isEmpty_iff.mpr valid)]
  rw [built valid, built valid', rootName, versions]
  have nodes : Agree BuiltAlike
      (buildNode registry {} tool'.rootName tool'.rootName tool'.version? tool.tree)
      (buildNode registry {} tool'.rootName tool'.rootName tool'.version? tool'.tree) :=
    buildNode_alike trees
  generalize buildNode registry {} tool'.rootName tool'.rootName tool'.version? tool.tree = built
    at nodes
  generalize buildNode registry {} tool'.rootName tool'.rootName tool'.version? tool'.tree = built'
    at nodes
  cases nodes with
  | error e => exact .error e
  | ok alike => exact .ok ⟨alike.grammar, alike.node⟩

/-! ### Views, side by side -/

/-- Two views that differ in presentation. -/
structure CommandLine.View.Resembles (view view' : View) : Prop where
  grammar : view.grammar.Resembles view'.grammar
  arguments : view.arguments.map Argument.bare = view'.arguments.map Argument.bare
  helpAllowed : view.helpAllowed = view'.helpAllowed

namespace CommandLine.View

theorem Resembles.child {view view' : View} (h : view.Resembles view') {grammar grammar' : Grammar}
    (below : grammar.Resembles grammar') :
    (view.child grammar).Resembles (view'.child grammar') where
  grammar := below
  arguments := by
    -- What is handed down depends on names and on persistence only.
    have uses (name : String) : (grammar.arguments.any fun own => own.name == name) =
        grammar'.arguments.any fun own => own.name == name := by
      have same := congrArg (List.any · fun own => own.name == name) below.arguments
      rwa [List.any_map, List.any_map] at same
    have handed := congrArg (List.filter fun arg =>
      arg.persistent && !grammar'.arguments.any fun own => own.name == arg.name) h.arguments
    rw [List.filter_map, List.filter_map] at handed
    simp only [View.child, View.inherited, List.map_append, below.arguments, uses]
    exact congrArg _ handed
  helpAllowed := by
    have own : grammar.helpCommand = grammar'.helpCommand :=
      (congrArg Head.helpCommand below.head :)
    rw [View.child, View.child, h.helpAllowed, own]

/-- Reading does not look at presentation. -/
theorem simulation_resembles : View.Simulation View.Resembles where
  reads := by
    intro view view' h
    exact {
      name := h.grammar.name
      version? := (congrArg Head.version? h.grammar.head :)
      arguments := h.arguments
      hasHelpCommand := hasHelpCommand_congr h.helpAllowed h.grammar.commands.length_eq }
  step := by
    intro view view' h word
    have selected : Option.Rel Grammar.Resembles (view.grammar.subcommand? word)
        (view'.grammar.subcommand? word) := by
      refine find?_forall₂ h.grammar.commands fun grammar grammar' below => ?_
      rw [Grammar.isCalled, Grammar.isCalled, below.name, below.aliases]
    generalize view.grammar.subcommand? word = found at selected ⊢
    generalize view'.grammar.subcommand? word = found' at selected ⊢
    cases selected with
    | none => exact .none
    | some below => exact .some (h.child below)

end CommandLine.View

/-! ### Errors that tell of the usage -/

namespace RunError

/-- An error without the usage that it tells of behind its message. -/
def withoutAdvice : RunError → RunError
  | .unknownCommand word path _ => .unknownCommand word path ""
  | .usage cause => .usage cause
  | .arity path cause => .arity path cause
  | .missingFlags path flags => .missingFlags path flags
  | .handler path text => .handler path text

/-- No control sequence starts in the words that the error names. -/
def EscapeFree (e : RunError) : Prop :=
  ∀ word path advice, e = .unknownCommand word path advice →
    '\x1b' ∉ word.toList ∧ '\x1b' ∉ path.toList

/-- Where no control sequence starts in its words, what is shown of an unknown command ends before
the advice. -/
theorem unknownCommandLine_congr {word path : String} (noWord : '\x1b' ∉ word.toList)
    (noPath : '\x1b' ∉ path.toList) (advice advice' : String) :
    unknownCommandLine word path advice = unknownCommandLine word path advice' := by
  obtain ⟨said, free, message⟩ : ∃ said : String, '\x1b' ∉ said.toList ∧
      s!" unknown command \"{word}\" for \"{path}\"\n" = said ++ "\n" := by
    refine ⟨" unknown command \"" ++ word ++ "\" for \"" ++ path ++ "\"", ?_, ?_⟩
    · simp [noWord, noPath]
    · simp [← String.toList_inj, toString]
  -- The word `error:` is styled, and its style is turned off behind it.
  have ended : Text.Sequence.after .outside (Text.alarm "error:" ++ said).toList = .outside := by
    have announced : Text.Sequence.after .outside (Text.alarm "error:").toList = .outside := by
      decide
    rw [String.toList_append, Text.Sequence.after_append, announced]
    exact Text.Sequence.after_outside free
  have closed : Text.Sequence.after .outside (Text.alarm "error:" ++ said ++ "\n").toList =
      .outside := by
    rw [String.toList_append, Text.Sequence.after_append, ended]
    exact Text.Sequence.after_outside (by decide)
  have cut : '\n' ∈ (Text.visible (Text.alarm "error:" ++ said ++ "\n")).toList := by
    rw [Text.visible_append ended, String.toList_append, List.mem_append]
    exact .inr (by decide)
  rw [unknownCommandLine, unknownCommandLine, message]
  simp only [← String.append_assoc, Text.visible_append closed, Text.head?_lines_append cut]

/-- Errors that are the same without the usage behind them have the same message, if one is kept,
unless a control sequence starts in their words. -/
theorem message?_congr {e e' : RunError} (same : e.withoutAdvice = e'.withoutAdvice)
    (free : e.EscapeFree) : e.message? = e'.message? := by
  cases e <;> cases e' <;>
    simp only [withoutAdvice, unknownCommand.injEq, usage.injEq, arity.injEq, missingFlags.injEq,
      handler.injEq, reduceCtorEq, and_true] at same
  case usage.usage => rw [same]
  case unknownCommand.unknownCommand word path advice _ _ advice' =>
    obtain ⟨noWord, noPath⟩ := free word path advice rfl
    obtain ⟨rfl, rfl⟩ := same
    exact unknownCommandLine_congr noWord noPath advice advice'
  case arity.arity => rw [same.1, same.2]
  case missingFlags.missingFlags => rw [same.1, same.2]
  case handler.handler => rw [same.1, same.2]

theorem exitCode_withoutAdvice (e : RunError) : e.withoutAdvice.exitCode = e.exitCode := by
  cases e with
  | usage cause => rfl
  | unknownCommand word path advice => rfl
  | arity path cause => rfl
  | missingFlags path flags => rfl
  | handler path text => rfl

end RunError

/-! ### Runs, side by side -/

/-- Two runs that differ in the text of a help, in the usage behind the message of an error, and in
the texts that are not kept of lines that the parser refuses. -/
structure Run.Alike (run run' : Run) : Prop where
  call : run.call? = run'.call?
  result : (run.result.map Outcome.withoutHelp).mapError RunError.withoutAdvice =
    (run'.result.map Outcome.withoutHelp).mapError RunError.withoutAdvice
  message : ∀ e e' text, run.result = .error e → run'.result = .error e' → e.EscapeFree →
    e.message? = some text → e'.message? = some text
  exitCode : run.exit.code = run'.exit.code

/-- The program ends with the exit code of the error, if there is one. -/
theorem Run.exit_code (run : Run) :
    run.exit.code = match run.result with
      | .ok _ => 0
      | .error e => e.exitCode := by
  obtain ⟨call?, result⟩ := run
  cases result with
  | ok outcome => cases outcome <;> rfl
  | error e =>
    cases e with
    | usage cause => cases cause <;> rfl
    | unknownCommand word path advice => rfl
    | arity path cause => rfl
    | missingFlags path flags => rfl
    | handler path text => rfl

theorem Run.alike_of_erase_eq {run run' : Run}
    (same : run.erase RunError.withoutAdvice = run'.erase RunError.withoutAdvice) :
    run.Alike run' := by
  obtain ⟨call?, result⟩ := run
  obtain ⟨call?', result'⟩ := run'
  simp only [Run.erase, Run.mk.injEq] at same
  obtain ⟨rfl, results⟩ := same
  refine ⟨rfl, results, ?_, ?_⟩
  · rintro e e' text rfl rfl free told
    rw [← RunError.message?_congr (Except.error.inj results) free, told]
  · rw [Run.exit_code, Run.exit_code]
    cases result with
    | ok outcome =>
      cases result' with
      | ok outcome' => rfl
      | error e' => cases results
    | error e =>
      cases result' with
      | ok outcome' => cases results
      | error e' =>
        have erased : e.withoutAdvice = e'.withoutAdvice := Except.error.inj results
        simp only
        rw [← RunError.exitCode_withoutAdvice e, erased, RunError.exitCode_withoutAdvice]

/-- Presentation is not observed: two valid tools that are equal without it are both built, to trees
with the same paths, or fail with the same error; and every line is answered alike. -/
theorem presentation_unobserved {tool tool' : ToolDecl} (valid : tool.Valid) (valid' : tool'.Valid)
    (same : tool.bare = tool'.bare) (registry : Registry) :
    Agree (fun tree tree' : Tree =>
        tree.paths = tree'.paths ∧ ∀ argv, (tree.run argv).Alike (tree'.run argv))
      (tool.build registry).result (tool'.build registry).result := by
  refine (build_alike valid valid' same registry).imp ?_
  rintro tree tree' ⟨grammar, root⟩
  refine ⟨by rw [Tree.paths, Tree.paths, root], fun argv => Run.alike_of_erase_eq ?_⟩
  have related : CommandLine.View.Resembles (.ofRoot tree.grammar) (.ofRoot tree'.grammar) :=
    ⟨grammar, grammar.arguments, (congrArg Head.helpCommand grammar.head :)⟩
  exact Tree.erase_run_eq CommandLine.View.simulation_resembles root related
    (fun _ _ _ _ word path => by simp only [RunError.withoutAdvice]) argv

/-- A command for a porch with a flag, that may be hidden. -/
def lampCommand (hidden : Bool) : CommandDecl where
  useLine := "lamp"
  summary := "Light the lamp"
  handler := "light"
  flags := [{ name := "dim", kind := "bool", usage := "Save oil", hidden }]
  hidden

/-- A tool for a porch with a lamp, that may be hidden. -/
def porchTool (hidden : Bool) : ToolDecl where
  name := "porch"
  root := { useLine := "porch", summary := "Light a porch" }
  commands := [("lamp", lampCommand hidden)]

/-- A function for `lamp`. -/
def porchRegistry : Registry :=
  .ofList [("light", .handler fun _ _ => .ok ())]

/-- A hidden command is called as it is when it shows. -/
theorem presentation_unobserved_porch :
    ∃ tree tree' call,
      ((porchTool false).build porchRegistry).result = .ok tree ∧
      ((porchTool true).build porchRegistry).result = .ok tree' ∧
      tree.paths = tree'.paths ∧
      (tree.run ["porch", "lamp", "--dim"]).call? = some call ∧
      (tree'.run ["porch", "lamp", "--dim"]).call? = some call ∧
      call.invocation.getBool "dim" = .ok true := by
  have answered : ((porchTool false).build porchRegistry).result.map (fun tree =>
      (tree.run ["porch", "lamp", "--dim"]).call?.map fun call =>
        call.invocation.getBool "dim") = .ok (some (.ok true)) := by rfl
  have shown : (porchTool false).Valid := by decide
  have hidden : (porchTool true).Valid := by decide
  have alike := presentation_unobserved shown hidden (by rfl) porchRegistry
  generalize ((porchTool false).build porchRegistry).result = built at answered alike
  generalize ((porchTool true).build porchRegistry).result = built' at alike
  cases alike with
  | error e => cases answered
  | @ok tree tree' alike =>
    obtain ⟨call, called, dim⟩ := Option.map_eq_some_iff.mp (Except.ok.inj answered)
    exact ⟨tree, tree', call, rfl, rfl, alike.1, called, (alike.2 _).call ▸ called, dim⟩

/-- What the porch tells of its usage. -/
def porchAdvice (hidden : Bool) : String :=
  String.join
    ["\n\n\x1b[1m\x1b[4mUsage:\x1b[0m \x1b[1mporch\x1b[0m [ARGS]...",
      if hidden then "" else " [COMMAND]",
      "\n\nFor more information, try '\x1b[1m--help\x1b[0m'.\n"]

/-- An escape character in a word swallows the end of the message, up to the usage; and the usage
tells whether there is a command that shows. -/
theorem messages_of_porch :
    (porchTool false).Valid ∧ (porchTool true).Valid ∧
      (porchTool false).bare = (porchTool true).bare ∧
      ∃ tree tree' e e',
        ((porchTool false).build porchRegistry).result = .ok tree ∧
        ((porchTool true).build porchRegistry).result = .ok tree' ∧
        (tree.run ["porch", "x\x1b]"]).result = .error e ∧
        (tree'.run ["porch", "x\x1b]"]).result = .error e' ∧
        e.message? = some "error: unknown command \"xUsage: porch [ARGS]... [COMMAND]" ∧
        e'.message? = some "error: unknown command \"xUsage: porch [ARGS]..." := by
  have told (hidden : Bool) : ((porchTool hidden).build porchRegistry).result.map (fun tree =>
      (tree.run ["porch", "x\x1b]"]).result) =
      .ok (.error (.unknownCommand "x\x1b]" "porch" (porchAdvice hidden))) := by
    cases hidden
    · rfl
    · rfl
  have refused (hidden : Bool) : ∃ tree,
      ((porchTool hidden).build porchRegistry).result = .ok tree ∧
        (tree.run ["porch", "x\x1b]"]).result =
          .error (.unknownCommand "x\x1b]" "porch" (porchAdvice hidden)) :=
    map_eq_ok_iff.mp (told hidden)
  obtain ⟨tree, built, shown⟩ := refused false
  obtain ⟨tree', built', hidden⟩ := refused true
  refine ⟨by decide, by decide, by rfl, tree, tree', _, _, built, built', shown, hidden, ?_, ?_⟩
  -- Texts that are put together are slow to take apart again, so all are spelt out first.
  all_goals
    simp only [RunError.message?, RunError.unknownCommandLine, Text.alarm, Text.styled, Text.visible,
      Text.lines, porchAdvice, toString, String.toList_append, String.toList_join,
      String.toList_ofList, List.flatMap_cons, List.flatMap_nil, List.head?_map]
    decide +kernel

end ToolTree
