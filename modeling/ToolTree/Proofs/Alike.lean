import ToolTree.Proofs.Requests

/-!
Two lines, or two trees, side by side.

Two chains of the same length are alike when their levels are related one by one (`Chain.Alike`).
What a chain asks for depends on its commands, its words and its settings only
(`Tree.request_congr`).

Two views are read alike when they agree in all that reading looks at, and a relation of views that
are read alike, kept by every step down, is a `View.Simulation`. One line selects alike chains from
the two sides of a simulation (`readTokens_alike`); when the nodes of two trees are equal as well,
the trees answer every line alike, but for texts (`Tree.erase_run_eq`).
-/

namespace ToolTree

namespace CommandLine.Chain

/-- Two chains of the same length whose levels are related one by one. -/
inductive Alike (R : Level → Level → Prop) : Chain → Chain → Prop where
  | last {level level' : Level} : R level level' → Alike R (.last level) (.last level')
  | above {level level' : Level} {below below' : Chain} :
      R level level' → Alike R below below' → Alike R (.above level below) (.above level' below')

namespace Alike

variable {R : Level → Level → Prop} {chain chain' : Chain}

theorem refl (same : ∀ level, R level level) (chain : Chain) : Alike R chain chain := by
  induction chain with
  | last level => exact .last (same level)
  | above level _ ih => exact .above (same level) ih

theorem leaf (h : Alike R chain chain') : R chain.leaf chain'.leaf := by
  induction h with
  | last related => exact related
  | above _ _ ih => exact ih

theorem levels (h : Alike R chain chain') : List.Forall₂ R chain.levels chain'.levels := by
  induction h with
  | last related => exact .cons related .nil
  | above related _ ih => exact .cons related ih

theorem map_levels {α : Type} {f : Level → α} (h : Alike R chain chain')
    (same : ∀ level level', R level level' → f level = f level') :
    chain.levels.map f = chain'.levels.map f :=
  map_eq_of_forall₂ h.levels fun level _ level' related => same level level' related

theorem merged (h : Alike R chain chain') {name : String}
    (same : ∀ level level', R level level' →
      Keyed.find? name level.settings = Keyed.find? name level'.settings) :
    chain.merged name = chain'.merged name := by
  induction h with
  | last related => exact same _ _ related
  | above related _ ih => rw [Chain.merged, Chain.merged, same _ _ related, ih]

end Alike

variable {chain chain' : Chain}

theorem names_congr
    (names : chain.levels.map (·.view.grammar.name) = chain'.levels.map (·.view.grammar.name)) :
    chain.names = chain'.names := by
  rw [Chain.names, Chain.names, List.map_tail, List.map_tail, names]

theorem persistentNames_congr
    (names : chain.levels.map (fun level =>
        (level.view.arguments.filter Argument.persistent).map Argument.name) =
      chain'.levels.map fun level =>
        (level.view.arguments.filter Argument.persistent).map Argument.name) :
    chain.persistentNames = chain'.persistentNames := by
  rw [Chain.persistentNames, Chain.persistentNames, List.flatMap_def, List.flatMap_def, names]

theorem getLast?_levels (chain : Chain) : chain.levels.getLast? = some chain.leaf := by
  induction chain with
  | last level => rfl
  | above level below ih =>
    rw [Chain.levels, Chain.leaf, List.getLast?_cons, ih]
    rfl

end CommandLine.Chain

open CommandLine (Chain Level View)

/-! ### Requests -/

/-- A bound command is asked for the same call by chains with the same words and settings. -/
theorem NodeFields.request_congr {node : NodeFields} {binding : Binding} {chain chain' : Chain}
    (words : chain.leaf.words = chain'.leaf.words) (settings : chain.setting? = chain'.setting?) :
    node.request binding chain = node.request binding chain' := by
  have missing : node.missingFlags chain = node.missingFlags chain' := by
    simp only [NodeFields.missingFlags, Chain.isGiven, settings]
  have invocation : node.invocation chain = node.invocation chain' := by
    simp only [NodeFields.invocation, settings]
  rw [NodeFields.request, NodeFields.request, words, missing, invocation]

/-- Chains with the same commands, words and settings ask for the same. -/
theorem Tree.request_congr {tree : Tree} {chain chain' : Chain} {program? : Option String}
    (views : chain.levels.map (·.view) = chain'.levels.map (·.view))
    (words : chain.leaf.words = chain'.leaf.words) (settings : chain.setting? = chain'.setting?) :
    tree.request chain program? = tree.request chain' program? := by
  have names : chain.names = chain'.names := by
    refine Chain.names_congr ?_
    have same := congrArg (List.map (·.grammar.name)) views
    rwa [List.map_map, List.map_map] at same
  have leaf : chain.leaf.view = chain'.leaf.view := by
    have last := congrArg List.getLast? views
    rw [List.getLast?_map, List.getLast?_map, Chain.getLast?_levels, Chain.getLast?_levels] at last
    exact Option.some.inj last
  have path : chain.usagePath program? = chain'.usagePath program? := by
    rw [Chain.usagePath, Chain.usagePath, views]
  have help : chain.help program? = chain'.help program? := by
    rw [Chain.help, Chain.help, leaf, path]
  have advice : chain.advice program? = chain'.advice program? := by
    rw [Chain.advice, Chain.advice, leaf, path]
  simp only [Tree.request, names, words, help, advice, NodeFields.request_congr words settings]

/-! ### Views that are read alike -/

namespace CommandLine

/-- An argument without what is only shown of it. -/
def Argument.bare (arg : Argument) : Argument :=
  { arg with summary := "", hidden := false }

theorem Argument.name_of_bare {arg arg' : Argument} (same : arg.bare = arg'.bare) :
    arg.name = arg'.name :=
  (congrArg Argument.name same :)

theorem Argument.role_of_bare {arg arg' : Argument} (same : arg.bare = arg'.bare) :
    arg.role = arg'.role :=
  (congrArg Argument.role same :)

/-- Two views agree in all that the reading of their own tokens looks at. -/
structure View.ReadsAlike (view view' : View) : Prop where
  name : view.grammar.name = view'.grammar.name
  version? : view.grammar.version? = view'.grammar.version?
  arguments : view.arguments.map Argument.bare = view'.arguments.map Argument.bare
  hasHelpCommand : view.hasHelpCommand = view'.hasHelpCommand

theorem View.hasHelpCommand_congr {view view' : View}
    (allowed : view.helpAllowed = view'.helpAllowed)
    (commands : view.grammar.subcommands.length = view'.grammar.subcommands.length) :
    view.hasHelpCommand = view'.hasHelpCommand := by
  have empty : view.grammar.subcommands.isEmpty = view'.grammar.subcommands.isEmpty := by
    rw [Bool.eq_iff_iff, List.isEmpty_iff_length_eq_zero, List.isEmpty_iff_length_eq_zero, commands]
  rw [hasHelpCommand, hasHelpCommand, allowed, empty]

/-- A relation of views that are read alike, which each step down keeps: a word selects commands
that are related again, or none on either side. -/
structure View.Simulation (same : View → View → Prop) : Prop where
  reads : ∀ view view', same view view' → view.ReadsAlike view'
  step : ∀ view view', same view view' → ∀ word,
    Option.Rel (fun grammar grammar' => same (view.child grammar) (view'.child grammar'))
      (view.grammar.subcommand? word) (view'.grammar.subcommand? word)

section Reading

variable {view view' : View} (alike : view.ReadsAlike view')
include alike

/-- A look-up among the arguments that does not ask for what is only shown. -/
theorem View.ReadsAlike.find? (p : Argument → Bool) (blind : ∀ arg, p arg.bare = p arg) :
    Option.Rel (fun arg arg' => arg.bare = arg'.bare) (view.arguments.find? p)
      (view'.arguments.find? p) := by
  refine find?_forall₂ (forall₂_of_map_eq alike.arguments) fun arg arg' same => ?_
  rw [← blind arg, same, blind arg']

namespace Progress

variable (p : Progress)

theorem addLong_congr (name : String) (value? : Option String) :
    p.addLong view name value? = p.addLong view' name value? := by
  have version : p.askVersion view = p.askVersion view' := by
    rw [askVersion, askVersion, alike.name, alike.version?]
  have named : Option.Rel (fun arg arg' : Argument => arg.bare = arg'.bare) (view.named? name)
      (view'.named? name) := alike.find? _ fun _ => rfl
  rw [addLong, addLong]
  generalize view.named? name = found at named
  generalize view'.named? name = found' at named
  cases named with
  | none => rfl
  | @some arg arg' same =>
    simp only [Argument.role_of_bare same, Argument.name_of_bare same, version]

theorem addLetters_congr (letters : List Char) :
    p.addLetters view letters = p.addLetters view' letters := by
  induction letters generalizing p with
  | nil => rfl
  | cons letter rest ih =>
    have version : p.askVersion view = p.askVersion view' := by
      rw [askVersion, askVersion, alike.name, alike.version?]
    have lettered : Option.Rel (fun arg arg' : Argument => arg.bare = arg'.bare)
        (view.lettered? letter) (view'.lettered? letter) := alike.find? _ fun _ => rfl
    rw [addLetters, addLetters]
    generalize view.lettered? letter = found at lettered
    generalize view'.lettered? letter = found' at lettered
    cases lettered with
    | none => rfl
    | @some arg arg' same =>
      simp only [Argument.role_of_bare same, Argument.name_of_bare same, version]
      split
      · rfl
      · rfl
      · rfl
      · rfl
      · rfl
      · simp only [ih]

theorem addToken_congr (token : String) : p.addToken view token = p.addToken view' token := by
  rw [addToken, addToken]
  simp only [addLong_congr alike, addLetters_congr alike]

/-- The end of a command is the same for views that are read alike. -/
theorem finish_alike :
    Agree (fun level level' => (level.view = view ∧ level'.view = view') ∧
        level.settings = level'.settings ∧ level.words = level'.words)
      (p.finish view) (p.finish view') := by
  have blind (settings : Settings) :
      (view.arguments.any fun arg => arg.required && (Keyed.find? arg.name settings).isNone) =
        view'.arguments.any fun arg => arg.required && (Keyed.find? arg.name settings).isNone := by
    have same := congrArg (List.any · fun arg =>
      arg.required && (Keyed.find? arg.name settings).isNone) alike.arguments
    rwa [List.any_map, List.any_map] at same
  have defaults (settings : Settings) :
      settings.withDefaults view.arguments = settings.withDefaults view'.arguments := by
    have same := congrArg settings.withDefaults alike.arguments
    rwa [Settings.withDefaults, Settings.withDefaults, List.foldl_map, List.foldl_map] at same
  refine Agree.bind_same fun flushed => ?_
  rw [blind]
  split
  · exact .error _
  · exact .ok ⟨⟨rfl, rfl⟩, defaults _, rfl⟩

end Progress

end Reading

/-- Two levels with related views, the same settings and the same words. -/
structure Level.Alike (same : View → View → Prop) (level level' : Level) : Prop where
  view : same level.view level'.view
  settings : level.settings = level'.settings
  words : level.words = level'.words

namespace View.Simulation

variable {same : View → View → Prop} (sim : Simulation same)
include sim

/-- The automatic `help` command gives the same answer on both sides. -/
theorem helpAnswer_eq {view view' : View} (related : same view view') (words : List String) :
    helpAnswer view words = helpAnswer view' words := by
  induction words generalizing view view' with
  | nil => rfl
  | cons word rest ih =>
    have selected := sim.step view view' related word
    have hasHelpCommand := (sim.reads view view' related).hasHelpCommand
    rw [helpAnswer, helpAnswer]
    generalize view.grammar.subcommand? word = found at selected
    generalize view'.grammar.subcommand? word = found' at selected
    cases selected with
    | none => simp only [hasHelpCommand]
    | some related => exact ih related

/-- A line selects alike chains from both sides. -/
theorem readTokens_alike {view view' : View} (related : same view view') (p : Progress)
    (tokens : List String) :
    Agree (Chain.Alike (Level.Alike same)) (readTokens view p tokens)
      (readTokens view' p tokens) := by
  have ends {view view' : View} (related : same view view') (p : Progress) :
      Agree (Level.Alike same) (p.finish view) (p.finish view') := by
    refine (p.finish_alike (sim.reads view view' related)).imp ?_
    rintro level level' ⟨⟨rfl, rfl⟩, settings, words⟩
    exact ⟨related, settings, words⟩
  -- The induction is on the line; a word that selects a command goes on with the views below.
  induction tokens generalizing view view' p with
  | nil => exact (ends related p).bind fun level level' alike => .ok (.last alike)
  | cons token rest ih =>
    have taken : Agree (Chain.Alike (Level.Alike same))
        (do readTokens view (← p.addToken view token) rest)
        (do readTokens view' (← p.addToken view' token) rest) := by
      rw [p.addToken_congr (sim.reads view view' related)]
      exact Agree.bind_same fun next => ih related next
    rw [readTokens, readTokens]
    split
    · have selected := sim.step view view' related token
      generalize view.grammar.subcommand? token = found at selected
      generalize view'.grammar.subcommand? token = found' at selected
      cases selected with
      | some below =>
        refine (ih below {}).bind fun below below' alike => ?_
        exact (ends related p).bind fun level level' top => .ok (.above top alike)
      | none =>
        rw [(sim.reads view view' related).hasHelpCommand, sim.helpAnswer_eq related]
        simp only
        split
        · exact .error _
        · exact taken
    · exact taken

end View.Simulation

/-- What alike chains set is the same. -/
theorem Chain.Alike.setting?_eq {same : View → View → Prop} (sim : View.Simulation same)
    {chain chain' : Chain} (alike : Chain.Alike (Level.Alike same) chain chain') :
    chain.setting? = chain'.setting? := by
  have handed : ∀ level level', Level.Alike same level level' →
      (level.view.arguments.filter Argument.persistent).map Argument.name =
        (level'.view.arguments.filter Argument.persistent).map Argument.name := by
    intro level level' levels
    have arguments := congrArg (fun args => (args.filter Argument.persistent).map Argument.name)
      (sim.reads _ _ levels.view).arguments
    simp only [List.filter_map, List.map_map] at arguments
    exact arguments
  have persistentNames := Chain.persistentNames_congr (alike.map_levels handed)
  funext name
  have merged : chain.merged name = chain'.merged name :=
    alike.merged fun level level' levels => by rw [levels.settings]
  rw [setting?, setting?, persistentNames, merged, alike.leaf.settings]

end CommandLine

/-! ### Runs of two trees -/

/-- An outcome without the text of a help. -/
def Outcome.withoutHelp : Outcome → Outcome
  | .ran => .ran
  | .help _ => .help ""

/-- A run without the text of a help, and with what is kept of an error. -/
def Run.erase (keep : RunError → RunError) (run : Run) : Run :=
  { run with result := (run.result.map Outcome.withoutHelp).mapError keep }

/-- The run of what a line asks for. -/
def Run.ofRequest : Except RunError Request → Run
  | .error e => ⟨none, .error e⟩
  | .ok (.help text) => ⟨none, .ok (.help text)⟩
  | .ok (.call call) => ⟨some call, call.result⟩

theorem Run.erase_help (keep : RunError → RunError) (text : String) :
    (Run.ofRequest (.ok (.help text))).erase keep = ⟨none, .ok (.help "")⟩ :=
  rfl

theorem Run.erase_error (keep : RunError → RunError) (e : RunError) :
    (Run.ofRequest (.error e)).erase keep = ⟨none, .error (keep e)⟩ :=
  rfl

theorem Tree.run_eq (tree : Tree) (argv : List String) :
    tree.run argv = Run.ofRequest (tree.resolve argv) := by
  unfold Tree.run
  cases tree.resolve argv with
  | error e => rfl
  | ok request =>
    cases request with
    | call call => rfl
    | help text => rfl

/-- Two chains that lead to the same node, with the same words and settings, are answered alike if
what is kept of their advice is the same. -/
theorem Tree.erase_request_eq {tree tree' : Tree} (root : tree.root = tree'.root)
    {chain chain' : Chain} (names : chain.names = chain'.names)
    (words : chain.leaf.words = chain'.leaf.words) (settings : chain.setting? = chain'.setting?)
    {keep : RunError → RunError} {program? : Option String}
    (advice : ∀ word path, keep (.unknownCommand word path (chain.advice program?)) =
      keep (.unknownCommand word path (chain'.advice program?))) :
    (Run.ofRequest (tree.request chain program?)).erase keep =
      (Run.ofRequest (tree'.request chain' program?)).erase keep := by
  simp only [Tree.request, root, names, words, NodeFields.request_congr words settings]
  cases tree'.root.follow? chain'.names with
  | none => rfl
  | some node =>
    cases bound : node.binding? with
    | some binding => simp only [bound]
    | none =>
      simp only [bound]
      cases chain'.leaf.words.head?.filter fun _ => !node.children.isEmpty with
      | none => simp only [Run.erase_help]
      | some word => simp only [Run.erase_error, advice]

/-- A line is answered alike by two trees with the same nodes whose views simulate each other, if
what is kept of the advice of alike chains is the same. -/
theorem Tree.erase_run_eq {same : View → View → Prop} (sim : View.Simulation same)
    {tree tree' : Tree} (root : tree.root = tree'.root)
    (related : same (.ofRoot tree.grammar) (.ofRoot tree'.grammar)) {keep : RunError → RunError}
    (advice : ∀ chain chain', Chain.Alike (Level.Alike same) chain chain' →
      ∀ program? word path, keep (.unknownCommand word path (chain.advice program?)) =
        keep (.unknownCommand word path (chain'.advice program?))) (argv : List String) :
    (tree.run argv).erase keep = (tree'.run argv).erase keep := by
  have parsed : Agree (Chain.Alike (Level.Alike same)) (tree.grammar.parse argv)
      (tree'.grammar.parse argv) := sim.readTokens_alike related {} argv.tail
  rw [Tree.run_eq, Tree.run_eq, Tree.resolve, Tree.resolve]
  generalize tree.grammar.parse argv = read at parsed ⊢
  generalize tree'.grammar.parse argv = read' at parsed ⊢
  cases parsed with
  | error e => rfl
  | ok alike =>
    have names := Chain.names_congr
      (alike.map_levels fun _ _ levels => (sim.reads _ _ levels.view).name)
    exact Tree.erase_request_eq root names alike.leaf.words (alike.setting?_eq sim)
      (advice _ _ alike argv.head?)

end ToolTree
