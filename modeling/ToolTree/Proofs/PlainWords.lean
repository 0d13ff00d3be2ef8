import ToolTree.Proofs.Requests

/-!
What a line of plain words asks for.

`CommandDecl.walk` takes words as steps down the declared commands for as long as they name one.
Where no flag is required, a line of plain words selects the command that the walk ends at, with
the words that are left (`Stands.readTokens_plain`): the first word that names no command right
below is a positional word, and so is every word after it.
-/

namespace ToolTree

open CommandLine (Chain Progress View readTokens)

/-! ### The walk -/

/-- Whether a word names a command that stands under a key: by its canonical name or an alias. -/
def CommandFields.isCalled (command : CommandFields) (key word : String) : Bool :=
  command.nameOr key == word || command.aliases.contains word

/-- Where words lead: the canonical names on the way, the command at its end, and the words that
are left. -/
structure Walk where
  names : List String := []
  command : CommandDecl
  words : List String

/-- Takes words as steps down for as long as the next one names a command right below. -/
def CommandDecl.walk (c : CommandDecl) : List String → Walk
  | [] => { command := c, words := [] }
  | word :: rest =>
    match c.commands.find? fun (key, child) => child.isCalled key word with
    | some (key, child) =>
      let below := child.walk rest
      { below with names := child.nameOr key :: below.names }
    | none => { command := c, words := word :: rest }

theorem CommandDecl.leads_walk (c : CommandDecl) (words : List String) :
    ∃ above, c.Leads above (c.walk words).names (c.walk words).command := by
  induction words generalizing c with
  | nil => exact ⟨[], .here c⟩
  | cons word rest ih =>
    rw [walk]
    split
    · next key child called =>
      obtain ⟨above, leads⟩ := ih child
      exact ⟨_, .down (List.mem_of_find?_eq_some called) leads⟩
    · exact ⟨[], .here c⟩

/-- Neither the command nor any command below it has a flag that is required. -/
def CommandDecl.NoFlagRequired (c : CommandDecl) : Prop :=
  ∀ above names d, c.Leads above names d → ∀ flag ∈ d.flags, flag.required = false

theorem CommandDecl.noFlagRequired_iff {c : CommandDecl} :
    c.NoFlagRequired ↔ (∀ flag ∈ c.flags, flag.required = false) ∧
      ∀ key child, (key, child) ∈ c.commands → child.NoFlagRequired :=
  forall_leads_iff

/-! ### Reading words -/

namespace CommandLine

/-- A word that is neither taken for a flag nor for the request for help. -/
def IsPlain (word : String) : Prop :=
  word.toList.head? ≠ some '-' ∧ word ≠ helpName

instance (word : String) : Decidable (IsPlain word) :=
  inferInstanceAs (Decidable (_ ∧ _))

theorem Form.of_undashed {word : String} (undashed : word.toList.head? ≠ some '-') :
    Form.of word = .plain := by
  unfold Form.of
  split
  · next letters => simp [letters] at undashed
  · next letters => simp [letters] at undashed
  · next letters => simp [letters] at undashed
  · rfl

/-- A word without a dash adds itself to the words when no value is awaited. -/
theorem Progress.addToken_undashed {view : View} {p : Progress} {word : String}
    (undashed : word.toList.head? ≠ some '-') (idle : p.pending? = none) :
    p.addToken view word = .ok { p with afterWord := true, words := p.words ++ [word] } := by
  have added : p.addWord word = .ok { p with afterWord := true, words := p.words ++ [word] } := by
    simp only [addWord, bind_eq_ok_iff]
    exact ⟨p, flush_eq_ok_iff.mpr (.inl ⟨idle, rfl⟩), rfl⟩
  unfold addToken
  split
  · exact added
  · rw [Form.of_undashed undashed, addValue]
    simp only [idle, added]

/-- Where no argument is required, a command of which only words are read is read to its end. -/
theorem Progress.finish_of_optional {view : View} {p : Progress}
    (optional : ∀ arg ∈ view.arguments, arg.required = false) (idle : p.pending? = none) :
    ∃ level, p.finish view = .ok level ∧ level.words = p.words := by
  refine ⟨_, finish_eq_ok_iff.mpr ⟨p, ?_, ?_, rfl⟩, rfl⟩
  · exact flush_eq_ok_iff.mpr (.inl ⟨idle, rfl⟩)
  · intro arg mem required
    rw [optional arg mem] at required
    cases required

/-- After a positional word, all plain words are positional. -/
theorem readTokens_afterWord {view : View}
    (optional : ∀ arg ∈ view.arguments, arg.required = false) {p : Progress}
    (idle : p.pending? = none) (after : p.afterWord = true) {words : List String}
    (plain : ∀ word ∈ words, IsPlain word) :
    ∃ level, readTokens view p words = .ok (.last level) ∧ level.words = p.words ++ words := by
  induction words generalizing p with
  | nil =>
    obtain ⟨level, finished, words⟩ := Progress.finish_of_optional optional idle
    refine ⟨level, bind_eq_ok_iff.mpr ⟨level, finished, rfl⟩, ?_⟩
    rw [words, List.append_nil]
  | cons word rest ih =>
    rw [List.forall_mem_cons] at plain
    have added : p.addToken view word =
        .ok { p with afterWord := true, words := p.words ++ [word] } :=
      Progress.addToken_undashed plain.1.1 idle
    obtain ⟨level, read, words⟩ :=
      ih (p := { p with afterWord := true, words := p.words ++ [word] }) idle rfl plain.2
    have deaf : p.readsCommands = false := by simp [Progress.readsCommands, after]
    refine ⟨level, ?_, by simpa using words⟩
    rw [readTokens.eq_def]
    simp only [deaf, Bool.false_eq_true, if_false]
    exact bind_eq_ok_iff.mpr ⟨_, added, read⟩

/-- A plain word that selects no command is the first positional word of a command. -/
theorem readTokens_stop {view : View}
    (optional : ∀ arg ∈ view.arguments, arg.required = false) {word : String} {rest : List String}
    (plain : ∀ each ∈ word :: rest, IsPlain each) (free : view.grammar.subcommand? word = none) :
    ∃ level, readTokens view {} (word :: rest) = .ok (.last level) ∧
      level.words = word :: rest := by
  obtain ⟨first, others⟩ := List.forall_mem_cons.mp plain
  obtain ⟨level, read, words⟩ :=
    readTokens_afterWord optional (p := { afterWord := true, words := [word] }) rfl rfl others
  have reads : ({} : Progress).readsCommands = true := rfl
  have noHelp : ¬ (view.hasHelpCommand = true ∧ word = helpName) := fun help => first.2 help.2
  refine ⟨level, ?_, words⟩
  rw [readTokens.eq_def]
  simp only [reads, if_true, free, noHelp, if_false]
  exact bind_eq_ok_iff.mpr ⟨_, Progress.addToken_undashed first.1 rfl, read⟩

/-- A token that selects a command below hands the rest of the line to it. -/
theorem readTokens_called {view : View} {p : Progress} (reads : p.readsCommands = true)
    {token : String} {rest : List String} {grammar : Grammar}
    (called : view.grammar.subcommand? token = some grammar) :
    readTokens view p (token :: rest) = do
      let below ← readTokens (view.child grammar) {} rest
      return .above (← p.finish view) below := by
  rw [readTokens]
  simp only [reads, if_true, called]

/-- A first word that selects a command hands the rest of the line to it. -/
theorem readTokens_down {view : View}
    (optional : ∀ arg ∈ view.arguments, arg.required = false) {word : String} {rest : List String}
    {grammar : Grammar} (called : view.grammar.subcommand? word = some grammar) {below : Chain}
    (read : readTokens (view.child grammar) {} rest = .ok below) :
    ∃ level, readTokens view {} (word :: rest) = .ok (.above level below) := by
  obtain ⟨level, finished, -⟩ := Progress.finish_of_optional (p := {}) optional rfl
  refine ⟨level, ?_⟩
  rw [readTokens_called rfl called]
  exact bind_eq_ok_iff.mpr ⟨below, read, bind_eq_ok_iff.mpr ⟨level, finished, rfl⟩⟩

end CommandLine

/-! ### The walk of a line -/

namespace Stands

variable {registry : Registry} {above : List CommandFields} {path : String} {c : CommandDecl}
  {view : View} {node : Node}

/-- A word selects a grammar that stands for the declared command that it names. -/
theorem subcommand? (h : Stands registry above path c view node) (word : String) :
    Option.Rel (StandsBelow registry (above ++ [c.toCommandFields]) path view node)
      (c.commands.find? fun (key, child) => child.isCalled key word)
      (view.grammar.subcommand? word) := by
  refine find?_forall₂ h.commands fun entry grammar below => ?_
  obtain ⟨⟨name, aliases⟩, -⟩ := below
  rw [CommandLine.Grammar.isCalled, name, aliases]
  rfl

theorem arguments_optional (h : Stands registry above path c view node)
    (optional : c.NoFlagRequired) :
    ∀ arg ∈ view.arguments, arg.required = false := by
  intro arg mem
  by_contra asked
  obtain ⟨flag, declared, ⟨required, -⟩, -⟩ :=
    h.required_argument_iff.mp ⟨arg, mem, eq_true_of_ne_false asked, rfl⟩
  rw [(CommandDecl.noFlagRequired_iff.mp optional).1 flag declared] at required
  cases required

/-- A line of plain words selects the command that the walk ends at, with the words left. -/
theorem readTokens_plain (h : Stands registry above path c view node)
    (optional : c.NoFlagRequired)
    {words : List String} (plain : ∀ word ∈ words, CommandLine.IsPlain word) :
    ∃ chain, readTokens view {} words = .ok chain ∧ chain.names = (c.walk words).names ∧
      chain.leaf.words = (c.walk words).words := by
  induction words generalizing above path c view node with
  | nil =>
    obtain ⟨level, finished, words⟩ :=
      Progress.finish_of_optional (p := {}) (h.arguments_optional optional) rfl
    exact ⟨.last level, bind_eq_ok_iff.mpr ⟨level, finished, rfl⟩, rfl, words⟩
  | cons word rest ih =>
    -- The walk and the reading look the first word up among commands that stand side by side, so
    -- either both go down or both stop.
    have selected := h.subcommand? word
    rw [CommandDecl.walk]
    cases called : c.commands.find? fun (key, child) => child.isCalled key word with
    | none =>
      cases chosen : view.grammar.subcommand? word with
      | some grammar =>
        rw [called, chosen] at selected
        cases selected
      | none =>
        obtain ⟨level, read, words⟩ :=
          CommandLine.readTokens_stop (h.arguments_optional optional) plain chosen
        exact ⟨.last level, read, rfl, words⟩
    | some entry =>
      cases chosen : view.grammar.subcommand? word with
      | none =>
        rw [called, chosen] at selected
        cases selected
      | some grammar =>
        rw [called, chosen] at selected
        obtain ⟨key, child⟩ := entry
        obtain ⟨-, children⟩ := CommandDecl.noFlagRequired_iff.mp optional
        obtain ⟨⟨named, -⟩, childNode, -, stands⟩ := Option.rel_some_some.mp selected
        obtain ⟨below, read, names, words⟩ :=
          ih stands (children key child (List.mem_of_find?_eq_some called))
            (List.forall_mem_cons.mp plain).2
        obtain ⟨level, down⟩ :=
          CommandLine.readTokens_down (h.arguments_optional optional) chosen read
        have top : below.top.view = view.child grammar :=
          (CommandLine.descends_of_readTokens Progress.sound_empty read).top_view
        refine ⟨.above level below, down, ?_, words⟩
        rw [Chain.names_above, top, names]
        exact congrArg (· :: _) named

end Stands

/-! ### The run of a line -/

/-- What a walk calls for. A command that is bound to a function has it called once, with the
words left or, if it is an action, without any, if its rule accepts their number; the run ends as
the function does. Any other command calls nothing: a word left names none of the commands below it,
if there are any, and else its help is shown. -/
structure Walk.Answered (registry : Registry) (root : String) (walk : Walk) (run : Run) :
    Prop where
  bound : walk.command.handler ≠ "" → ∃ handler arity,
    registry.get? walk.command.handler = some handler ∧ walk.command.arity = .ok arity ∧
      match arity.check walk.words.length with
      | .ok () => ∃ invocation, invocation.path = pathFrom root walk.names ∧
        run.Calls ⟨⟨walk.command.handler, handler⟩, invocation, walk.words⟩
      | .error cause => run = ⟨none, .error (.arity (pathFrom root walk.names) cause)⟩
  unbound : walk.command.handler = "" → run.call? = none ∧
    match walk.words, walk.command.commands with
    | word :: _, _ :: _ =>
      ∃ advice, run.result = .error (.unknownCommand word (pathFrom root walk.names) advice)
    | _, _ => ∃ text, run.result = .ok (.help text)

theorem requiredNames_eq_nil {c d : CommandDecl} (optional : c.NoFlagRequired)
    {above : List CommandFields} {names : List String} (leads : c.Leads above names d) :
    requiredNames (above ++ [d.toCommandFields]) = [] := by
  have optional' : ∀ flag ∈ persistentFlags (above ++ [d.toCommandFields]),
      flag.required = false := by
    intro flag mem
    obtain ⟨command, upper, declared, -⟩ := mem_persistentFlags_iff.mp mem
    rcases List.mem_append.mp upper with upper | own
    · obtain ⟨above', names', e, leads', rfl⟩ := leads.of_mem_above upper
      exact optional _ _ e leads' flag declared
    · cases List.mem_singleton.mp own
      exact optional _ _ d leads flag declared
  simpa [requiredNames] using optional'

namespace Stands

variable {registry : Registry} {above : List CommandFields} {path : String} {c : CommandDecl}
  {view : View} {node : Node} {tree : Tree} {argv : List String} {chain : Chain}

/-- A selected command that is bound to nothing calls nothing. -/
theorem run_unbound (h : Stands registry above path c view node)
    (read : tree.grammar.parse argv = .ok chain)
    (follows : tree.root.follow? chain.names = some node) (unnamed : c.handler = "") :
    (tree.run argv).call? = none ∧
      match chain.leaf.words, c.commands with
      | word :: _, _ :: _ =>
        ∃ advice, (tree.run argv).result = .error (.unknownCommand word path advice)
      | _, _ => ∃ text, (tree.run argv).result = .ok (.help text) := by
  have unbound : node.binding? = none := by
    rcases h.binding with ⟨-, unbound⟩ | ⟨named, -⟩
    · exact unbound
    · exact absurd unnamed named
  have resolved := Tree.resolve_of_parse read
  have children := h.isEmpty_children
  split
  · next word rest first others left commands =>
    rw [commands] at children
    rw [Tree.request_of_unknown follows unbound left children, h.agrees.path_eq] at resolved
    rw [Tree.run, resolved]
    exact ⟨rfl, _, rfl⟩
  · next done =>
    have free : chain.leaf.words = [] ∨ node.children.isEmpty = true := by
      rw [children]
      cases left : chain.leaf.words with
      | nil => exact .inl rfl
      | cons word rest =>
        cases commands : c.commands with
        | nil => exact .inr rfl
        | cons first others => exact (done word rest first others left commands).elim
    rw [Tree.request_of_unbound follows unbound free] at resolved
    rw [Tree.run, resolved]
    exact ⟨rfl, _, rfl⟩

/-- A selected command that is bound to a function has it called when its rule accepts the number
of words, if it needs no persistent flag. -/
theorem run_bound (h : Stands registry above path c view node)
    (read : tree.grammar.parse argv = .ok chain)
    (follows : tree.root.follow? chain.names = some node) (named : c.handler ≠ "")
    (optional : requiredNames (above ++ [c.toCommandFields]) = []) :
    ∃ handler arity, registry.get? c.handler = some handler ∧ c.arity = .ok arity ∧
      match arity.check chain.leaf.words.length with
      | .ok () => ∃ invocation, invocation.path = path ∧
        (tree.run argv).Calls ⟨⟨c.handler, handler⟩, invocation, chain.leaf.words⟩
      | .error cause => tree.run argv = ⟨none, .error (.arity path cause)⟩ := by
  rcases h.binding with ⟨unnamed, -⟩ | ⟨-, handler, registered, bound⟩
  · exact absurd unnamed named
  have resolved := Tree.resolve_of_parse read
  rw [Tree.request_of_bound follows bound] at resolved
  refine ⟨handler, node.arity, registered, h.agrees.arity, ?_⟩
  cases checked : node.arity.check chain.leaf.words.length with
  | ok _ =>
    have complete : node.missingFlags chain = [] := by
      rw [NodeFields.missingFlags, h.agrees.requiredFlags, optional]
      rfl
    rw [NodeFields.request_eq_ok_iff.mpr ⟨checked, complete, rfl⟩] at resolved
    refine ⟨node.invocation chain, h.agrees.path_eq, ?_⟩
    rw [Tree.run, resolved]
    exact Call.calls _
  | error cause =>
    rw [NodeFields.request_eq_error_iff.mpr (.inl ⟨cause, checked, rfl⟩)] at resolved
    rw [Tree.run, resolved, h.agrees.path_eq]

end Stands

/-- Where no flag is required, a line of plain words is answered as the walk calls for. -/
theorem run_plain_words {tool : ToolDecl} {registry : Registry} {tree : Tree}
    (built : (tool.build registry).result = .ok tree) (optional : tool.tree.NoFlagRequired)
    (program : String) {words : List String}
    (plain : ∀ word ∈ words, CommandLine.IsPlain word) :
    (tool.tree.walk words).Answered registry tool.rootName (tree.run (program :: words)) := by
  have root := stands_root built
  obtain ⟨chain, read, names, left⟩ := root.readTokens_plain optional plain
  obtain ⟨above, leads⟩ := tool.tree.leads_walk words
  obtain ⟨view, node, follows, stands⟩ := root.follow leads
  have parsed : tree.grammar.parse (program :: words) = .ok chain := read
  rw [← names] at follows
  constructor
  · intro named
    have run := stands.run_bound parsed follows named (requiredNames_eq_nil optional leads)
    rwa [left] at run
  · intro unnamed
    have run := stands.run_unbound parsed follows unnamed
    rwa [left] at run

/-- A tool for notes: `list` takes up to one word and has a command below it. -/
def notesTool : ToolDecl where
  name := "notes"
  root := { useLine := "notes", summary := "Keep notes" }
  commands := [("list", {
    useLine := "list [tag]"
    aliases := ["ls"]
    summary := "List notes"
    args := some (.atMost 1)
    handler := "list"
    commands := [("tags", { useLine := "tags", summary := "List tags" })] })]

/-- Functions for the tool for notes. -/
def notesRegistry : Registry :=
  .ofList [("list", .handler fun _ _ => .ok ())]

theorem run_plain_words_notes :
    notesTool.tree.NoFlagRequired ∧ (∀ word ∈ ["ls", "new", "tags"], CommandLine.IsPlain word) ∧
      ∃ tree, (notesTool.build notesRegistry).result = .ok tree ∧
        tree.run ["notes", "ls", "new", "tags"] =
          ⟨none, .error (.arity "notes list" (.tooMany 1 2))⟩ := by
  have optional : notesTool.tree.NoFlagRequired := by
    refine CommandDecl.noFlagRequired_iff.mpr ⟨by decide, fun key list mem => ?_⟩
    cases List.mem_singleton.mp mem
    refine CommandDecl.noFlagRequired_iff.mpr ⟨by decide, fun key tags mem => ?_⟩
    cases List.mem_singleton.mp mem
    refine CommandDecl.noFlagRequired_iff.mpr ⟨by decide, fun key child mem => ?_⟩
    cases mem
  have plain : ∀ word ∈ ["ls", "new", "tags"], CommandLine.IsPlain word := by decide
  have ok : (notesTool.build notesRegistry).result.isOk = true := by decide
  cases built : (notesTool.build notesRegistry).result with
  | error cause =>
    rw [built] at ok
    cases ok
  | ok tree =>
    have answered := run_plain_words built optional "notes" plain
    obtain ⟨handler, arity, -, resolved, answer⟩ := answered.bound (by decide)
    cases resolved
    exact ⟨optional, plain, tree, rfl, answer⟩

end ToolTree
