import ToolTree.Proofs.Requests

/-!
Words that a line gives to commands above the selected one.

While a command is read, its words are kept in their order on the line (`Progress.Trace`), and a
word keeps the tokens after it from naming a command until a flag comes. So a command above the
selected one has words only where a flag stands between the last of them and the name of the next
command (`Chain.Spans.flag_after_word`). A function that is called is given the words of the
selected command alone. `words_of_ran` says that those others are all that is lost, and
`stray_word_of_ferry` that they are.
-/

namespace ToolTree

namespace CommandLine

/-! ### One token -/

/-- A token that is read as a flag where no value is awaited. -/
def IsFlag (token : String) : Prop :=
  token.toList.head? = some '-' ∧ token ≠ "-" ∧ token ≠ "--"

theorem isFlag_of_toList {token : String} {c : Char} {rest : List Char}
    (letters : token.toList = '-' :: c :: rest) (more : c :: rest ≠ ['-']) : IsFlag token := by
  refine ⟨by simp [letters], ?_, ?_⟩
  · rintro rfl
    simp at letters
  · rintro rfl
    simp only [String.reduceToList, List.cons.injEq, true_and] at letters
    obtain ⟨rfl, rfl⟩ := letters
    exact more rfl

theorem form_cases (token : String) :
    Form.of token = .plain ∨ Form.of token = .separator ∨ IsFlag token := by
  unfold Form.of
  split
  · exact .inr (.inl rfl)
  · next rest other letters =>
    refine .inr (.inr (isFlag_of_toList letters ?_))
    intro same
    exact other (List.cons.inj same).2
  · next c rest other others letters =>
    refine .inr (.inr (isFlag_of_toList letters ?_))
    intro same
    exact others (List.cons.inj same).1
  · exact .inl rfl

namespace Progress

variable {view : View} {p p' : Progress} {token : String}

/-- What a token can do to the words of a command: it joins them as the last one or leaves them as
they are, which without two lone dashes before it any token can do that is awaited as a value, and
else only a flag or these dashes. -/
inductive Takes (p : Progress) (token : String) (p' : Progress) : Prop where
  | word : p'.words = p.words ++ [token] → p'.afterWord = true → p'.pending? = none →
      Takes p token p'
  | other : p'.words = p.words → p.trailing = false →
      (p.awaited? = none → IsFlag token ∨ p'.trailing = true) → Takes p token p'

theorem words_of_flush (ok : p.flush = .ok p') :
    p'.words = p.words ∧ p'.afterWord = p.afterWord ∧ p'.pending? = none := by
  rcases flush_eq_ok_iff.mp ok with ⟨idle, rfl⟩ | ⟨name, type, text, settings, -, -, rfl⟩
  · exact ⟨rfl, rfl, idle⟩
  · exact ⟨rfl, rfl, rfl⟩

theorem takes_of_addWord (ok : p.addWord token = .ok p') : p.Takes token p' := by
  obtain ⟨flushed, flush, ok⟩ := bind_eq_ok_iff.mp ok
  cases ok
  obtain ⟨words, -, idle⟩ := words_of_flush flush
  exact .word (congrArg (· ++ [token]) words) rfl idle

theorem takes_of_addValue (untrailed : p.trailing = false) (ok : p.addValue token = .ok p') :
    p.Takes token p' := by
  unfold addValue at ok
  split at ok
  · next name type waiting =>
    cases ok
    refine .other rfl untrailed ?_
    intro idle
    simp [awaited?, waiting] at idle
  · exact takes_of_addWord ok
  · exact takes_of_addWord ok

theorem words_of_addFlag {name : String} {type : FlagType} {value? : Option String}
    (ok : p.addFlag name type value? = .ok p') : p'.words = p.words := by
  obtain ⟨flushed, flush, ok⟩ := bind_eq_ok_iff.mp ok
  obtain ⟨words, -, -⟩ := words_of_flush flush
  split at ok
  · obtain ⟨settings, -, ok⟩ := bind_eq_ok_iff.mp ok
    cases ok
    exact words
  · obtain ⟨settings, -, ok⟩ := bind_eq_ok_iff.mp ok
    cases ok
    exact words
  · cases ok
    exact words

theorem words_of_addLong {name : String} {value? : Option String}
    (ok : p.addLong view name value? = .ok p') : p'.words = p.words := by
  unfold addLong at ok
  split at ok
  · cases ok
  · split at ok
    · exact words_of_addFlag ok
    · exact absurd ok askHelp_ne_ok
    · exact absurd ok askVersion_ne_ok
    · cases ok
    · cases ok
    · cases ok

theorem words_of_addLetters {letters : List Char}
    (ok : p.addLetters view letters = .ok p') : p'.words = p.words := by
  induction letters generalizing p with
  | nil =>
    cases ok
    rfl
  | cons letter rest ih =>
    unfold addLetters at ok
    split at ok
    · cases ok
    · split at ok
      · exact absurd ok askHelp_ne_ok
      · exact absurd ok askVersion_ne_ok
      · cases ok
      · exact words_of_addFlag ok
      · exact words_of_addFlag ok
      · split at ok
        · obtain ⟨added, flag, ok⟩ := bind_eq_ok_iff.mp ok
          rw [ih ok, words_of_addFlag flag]
        · exact words_of_addFlag ok

theorem takes_of_addToken (ok : p.addToken view token = .ok p') : p.Takes token p' := by
  unfold addToken at ok
  split at ok
  · exact takes_of_addWord ok
  · next untrailed =>
    have untrailed : p.trailing = false := eq_false_of_ne_true untrailed
    rcases form_cases token with plain | separator | flag
    · rw [plain] at ok
      exact takes_of_addValue untrailed ok
    · rw [separator] at ok
      simp only at ok
      split at ok
      · exact takes_of_addValue untrailed ok
      · cases ok
        exact .other rfl untrailed fun _ => .inr rfl
    · split at ok
      · split at ok
        · exact takes_of_addValue untrailed ok
        · cases ok
          exact .other rfl untrailed fun _ => .inr rfl
      · split at ok
        · exact takes_of_addValue untrailed ok
        · exact .other (words_of_addLong ok) untrailed fun _ => .inl flag
      · split at ok
        · exact takes_of_addValue untrailed ok
        · exact .other (words_of_addLetters ok) untrailed fun _ => .inl flag
      · exact takes_of_addValue untrailed ok

end Progress

/-! ### The tokens of one command -/

/-- What the words of a command tell of the tokens that were read for it: they are among them, in
order, and after the last of them stands nothing yet or a flag, if no two lone dashes make every
token a word. -/
structure Progress.Trace (p : Progress) (tokens : List String) : Prop where
  words : p.words.Sublist tokens
  last : p.words ≠ [] → ∃ before word after, tokens = before ++ word :: after ∧
    p.words.getLast? = some word ∧
      ((after = [] ∧ p.afterWord = true ∧ p.pending? = none) ∨ p.trailing = true ∨
        ∃ flag more, after = flag :: more ∧ IsFlag flag)

namespace Progress

variable {view : View} {p p' : Progress} {token : String} {tokens : List String}

theorem Trace.empty : Trace {} [] :=
  ⟨List.Sublist.refl [], fun nonempty => absurd rfl nonempty⟩

/-- A token keeps the trace. -/
theorem Trace.takes (h : p.Trace tokens) (took : p.Takes token p') :
    p'.Trace (tokens ++ [token]) := by
  cases took with
  | word words after idle =>
    refine ⟨?_, fun _ => ⟨tokens, token, [], rfl, ?_, .inl ⟨rfl, after, idle⟩⟩⟩
    · rw [words]
      exact h.words.append (List.Sublist.refl [token])
    · rw [words, List.getLast?_concat]
  | other words untrailed flagged =>
    refine ⟨?_, ?_⟩
    · rw [words]
      exact h.words.trans (List.sublist_append_left tokens [token])
    · intro nonempty
      rw [words] at nonempty
      obtain ⟨before, word, after, rfl, last, ends⟩ := h.last nonempty
      refine ⟨before, word, after ++ [token], by simp, by rw [words, last], ?_⟩
      rcases ends with ⟨rfl, -, idle⟩ | trailing | ⟨flag, more, rfl, isFlag⟩
      · have unawaited : p.awaited? = none := by rw [awaited?, idle]
        rcases flagged unawaited with isFlag | trailing
        · exact .inr (.inr ⟨token, [], rfl, isFlag⟩)
        · exact .inr (.inl trailing)
      · rw [untrailed] at trailing
        cases trailing
      · exact .inr (.inr ⟨flag, more ++ [token], rfl, isFlag⟩)

/-- Where the next token can name a command, the last word is behind a flag. -/
theorem Trace.flag_after (h : p.Trace tokens) (reads : p.readsCommands = true)
    (nonempty : p.words ≠ []) : ∃ before word flag more,
      tokens = before ++ word :: flag :: more ∧ p.words.getLast? = some word ∧ IsFlag flag := by
  simp only [readsCommands, Bool.and_eq_true, Bool.not_eq_true'] at reads
  obtain ⟨⟨untrailed, open_⟩, -⟩ := reads
  obtain ⟨before, word, after, split, last, ends⟩ := h.last nonempty
  rcases ends with ⟨-, closed, -⟩ | trailing | ⟨flag, more, rfl, isFlag⟩
  · rw [open_] at closed
    cases closed
  · rw [untrailed] at trailing
    cases trailing
  · exact ⟨before, word, flag, more, split, last, isFlag⟩

theorem words_of_finish {level : Level} (ok : p.finish view = .ok level) :
    level.view = view ∧ level.words = p.words := by
  obtain ⟨flushed, flush, -, rfl⟩ := finish_eq_ok_iff.mp ok
  exact ⟨rfl, (words_of_flush flush).1⟩

end Progress

/-! ### The tokens of a line -/

namespace Chain

/-- The commands above the selected one. -/
def outer : Chain → List Level
  | .last _ => []
  | .above level below => level :: below.outer

/-- All positional words, those of the root first. -/
def words (chain : Chain) : List String :=
  chain.levels.flatMap Level.words

theorem levels_eq_outer (chain : Chain) : chain.levels = chain.outer ++ [chain.leaf] := by
  induction chain with
  | last level => rfl
  | above level below ih => rw [levels, outer, leaf, ih, List.cons_append]

theorem words_eq_outer (chain : Chain) :
    chain.words = chain.outer.flatMap Level.words ++ chain.leaf.words := by
  rw [words, levels_eq_outer, List.flatMap_append, List.flatMap_singleton]

/-- A chain that tokens select: each command has a stretch of them for itself, and the token after
it names the next command. -/
inductive Spans : View → List String → Chain → Prop where
  | last {view : View} {p : Progress} {tokens : List String} {level : Level} :
      p.Trace tokens → p.finish view = .ok level → Spans view tokens (.last level)
  | above {view : View} {p : Progress} {own : List String} {name : String} {rest : List String}
      {level : Level} {grammar : Grammar} {below : Chain} :
      p.Trace own → p.readsCommands = true → p.finish view = .ok level →
      view.grammar.subcommand? name = some grammar → Spans (view.child grammar) rest below →
      Spans view (own ++ name :: rest) (.above level below)

/-- A line that is not refused is cut into the stretches of the commands that it selects. -/
theorem spans_of_readTokens {view : View} {p : Progress} {seen tokens : List String}
    {chain : Chain} (trace : p.Trace seen) (ok : readTokens view p tokens = .ok chain) :
    chain.Spans view (seen ++ tokens) := by
  induction tokens generalizing view p seen chain with
  | nil =>
    obtain ⟨level, finished, ok⟩ := bind_eq_ok_iff.mp ok
    cases ok
    rw [List.append_nil]
    exact .last trace finished
  | cons token rest ih =>
    have goOn : ∀ next, p.addToken view token = .ok next →
        readTokens view next rest = .ok chain → chain.Spans view (seen ++ token :: rest) := by
      intro next added read
      rw [List.append_cons]
      exact ih (trace.takes (Progress.takes_of_addToken added)) read
    unfold readTokens at ok
    split at ok
    · next reads =>
      split at ok
      · next grammar called =>
        obtain ⟨below, read, ok⟩ := bind_eq_ok_iff.mp ok
        obtain ⟨level, finished, ok⟩ := bind_eq_ok_iff.mp ok
        cases ok
        exact .above trace reads finished called (ih Progress.Trace.empty read)
      · split at ok
        · cases ok
        · obtain ⟨next, added, ok⟩ := bind_eq_ok_iff.mp ok
          exact goOn next added ok
    · obtain ⟨next, added, ok⟩ := bind_eq_ok_iff.mp ok
      exact goOn next added ok

namespace Spans

variable {view : View} {tokens : List String} {chain : Chain}

/-- The words of a chain stand on the line in their order. -/
theorem words_sublist (h : chain.Spans view tokens) : chain.words.Sublist tokens := by
  induction h with
  | last trace finished =>
    rw [words, levels, List.flatMap_singleton, (Progress.words_of_finish finished).2]
    exact trace.words
  | above trace reads finished called below ih =>
    rw [words, levels, List.flatMap_cons, (Progress.words_of_finish finished).2]
    exact trace.words.append (ih.cons _)

/-- A command above the selected one has words only if a flag stands between the last of them and
the name of the next command. -/
theorem flag_after_word (h : chain.Spans view tokens) {level : Level} (mem : level ∈ chain.outer)
    (nonempty : level.words ≠ []) : ∃ before word flag more name after,
      tokens = before ++ word :: flag :: (more ++ name :: after) ∧
      level.words.getLast? = some word ∧ IsFlag flag ∧
      (level.view.grammar.subcommand? name).isSome = true := by
  induction h with
  | last => cases mem
  | @above view p own name rest level grammar below trace reads finished called spans ih =>
    rcases List.mem_cons.mp mem with rfl | deeper
    · obtain ⟨sameView, sameWords⟩ := Progress.words_of_finish finished
      rw [sameWords] at nonempty
      obtain ⟨before, word, flag, more, rfl, last, isFlag⟩ := trace.flag_after reads nonempty
      refine ⟨before, word, flag, more, name, rest, by simp, by rw [sameWords, last], isFlag, ?_⟩
      rw [sameView, called]
      rfl
    · obtain ⟨before, word, flag, more, next, after, rfl, found⟩ := ih deeper
      refine ⟨own ++ name :: before, word, flag, more, next, after, by simp, found⟩

end Spans

end Chain

end CommandLine

open CommandLine (Chain IsFlag Level)

/-! ### What a function is given -/

/-- The words that the called function is given: those of the call, or none for an action. -/
def Call.handed (call : Call) : List String :=
  (call.binding.handler.words? call.words).getD []

/-- The words that are handed over are all that the function takes of those of the call. -/
theorem Call.gives_handed_iff {call : Call} {given : Except String Unit} :
    call.binding.handler.Gives call.invocation call.handed given ↔
      call.binding.handler.Gives call.invocation call.words given := by
  unfold handed
  rw [Handler.gives_iff, Handler.gives_iff]
  cases call.binding.handler with
  | handler run => simp
  | action run => simp

/-- A call that is made ends well only where its function, given the words that are handed over,
does. -/
theorem Tree.gives_of_ran {tree : Tree} {argv : List String} {call : Call}
    (ran : (tree.run argv).result = .ok .ran) (called : (tree.run argv).call? = some call) :
    call.binding.handler.Gives call.invocation call.handed (.ok ()) := by
  rw [Call.gives_handed_iff]
  obtain ⟨given, gives, ended⟩ := (Tree.calls_of_called called).ends
  rw [ran] at ended
  cases given with
  | ok done => exact gives
  | error text => cases ended

section Called

variable {tool : ToolDecl} {registry : Registry} {tree : Tree} {argv : List String}

/-- No word of the selected command is kept from its function: an action is bound only to a
command that accepts no words. -/
theorem handed_of_called (built : (tool.build registry).result = .ok tree) {call : Call}
    (called : (tree.run argv).call? = some call) : ∃ chain,
      tree.grammar.parse argv = .ok chain ∧ call.handed = chain.leaf.words := by
  obtain ⟨chain, node, binding, selects, accepted, -, rfl⟩ := Tree.checks_of_called called
  refine ⟨chain, selects.read, ?_⟩
  obtain ⟨-, above, c, descent⟩ := selects.descent built
  obtain ⟨-, -, -, fits⟩ := descent.stands.of_bound selects.bound
  unfold Call.handed Handler.words?
  by_cases action : binding.handler.isAction = true
  · rw [fits action, Arity.accepts_iff] at accepted
    have noWords : chain.leaf.words.length ≤ 0 := accepted.2 0 rfl
    simp [action, List.length_eq_zero_iff.mp (Nat.le_zero.mp noWords)]
  · simp [action]

/-- What becomes of the words of a line that runs a function. They are those of the line in their
order, and the function is applied to the ones of the selected command. So all of them reach it
exactly when no command above the selected one has words; one that has them is left by a flag: it
stands between the last of its words and the name of the next command. -/
theorem words_of_ran (built : (tool.build registry).result = .ok tree) (argv : List String)
    (ran : (tree.run argv).result = .ok .ran) :
    ∃ chain call, tree.grammar.parse argv = .ok chain ∧ (tree.run argv).call? = some call ∧
      call.binding.handler.Gives call.invocation call.handed (.ok ()) ∧
      chain.words.Sublist argv.tail ∧
      chain.words = chain.outer.flatMap Level.words ++ call.handed ∧
      (chain.words.Sublist call.handed ↔ ∀ level ∈ chain.outer, level.words = []) ∧
      ∀ level ∈ chain.outer, level.words ≠ [] → ∃ before word flag more name after,
        argv.tail = before ++ word :: flag :: (more ++ name :: after) ∧
          level.words.getLast? = some word ∧ IsFlag flag ∧
          (level.view.grammar.subcommand? name).isSome = true := by
  obtain ⟨call, called⟩ := Tree.called_of_ran ran
  obtain ⟨chain, read, handed⟩ := handed_of_called built called
  have spans := Chain.spans_of_readTokens CommandLine.Progress.Trace.empty read
  have split : chain.words = chain.outer.flatMap Level.words ++ call.handed := by
    rw [handed, chain.words_eq_outer]
  refine ⟨chain, call, read, called, Tree.gives_of_ran ran called, spans.words_sublist, split, ?_,
    fun level mem nonempty => spans.flag_after_word mem nonempty⟩
  rw [split, ← List.flatMap_eq_nil_iff]
  constructor
  · intro reaches
    have bound := reaches.length_le
    rw [List.length_append] at bound
    exact List.length_eq_zero_iff.mp (by omega)
  · intro none
    rw [none, List.nil_append]

end Called

/-- A tool whose root has a flag but no function, with one command below it. -/
def ferryTool : ToolDecl where
  name := "ferry"
  root := {
    useLine := "ferry"
    summary := "Run a ferry"
    flags := [FlagDecl.ofKind "loud" .bool "Say more"] }
  commands := [("load", {
    useLine := "load"
    summary := "Load cars"
    handler := "load" })]

/-- A function for `load`. -/
def ferryRegistry : Registry :=
  .ofList [("load", .handler fun _ _ => .ok ())]

/-- Both words of a line that names `load` first reach it, though a flag stands between them. -/
theorem words_of_ran_ferry :
    ∃ tree, (ferryTool.build ferryRegistry).result = .ok tree ∧
      (tree.run ["ferry", "--loud", "load", "car", "van"]).result = .ok .ran ∧
      ∃ (chain : Chain) (call : Call),
        tree.grammar.parse ["ferry", "--loud", "load", "car", "van"] = .ok chain ∧
        chain.words = chain.outer.flatMap Level.words ++ call.handed ∧
        call.handed = ["car", "van"] := by
  have ran : (ferryTool.build ferryRegistry).result.map (fun tree =>
      ((tree.run ["ferry", "--loud", "load", "car", "van"]).result,
        (tree.run ["ferry", "--loud", "load", "car", "van"]).call?.map Call.handed)) =
      .ok (.ok .ran, some ["car", "van"]) := by rfl
  cases built : (ferryTool.build ferryRegistry).result with
  | error cause =>
    rw [built] at ran
    cases ran
  | ok tree =>
    rw [built] at ran
    obtain ⟨ended, given⟩ := Prod.mk.inj (Except.ok.inj ran)
    obtain ⟨chain, call, read, called, -, -, split, -⟩ := words_of_ran built _ ended
    rw [called] at given
    exact ⟨tree, rfl, ended, chain, call, read, split, Option.some.inj given⟩

/-- A flag behind a word that names no command lets the next word name one: `load` is called, and
the first word, which alone would be refused, is given to no function. -/
theorem stray_word_of_ferry :
    ∃ (tree : Tree) (chain : Chain) (call : Call),
      (ferryTool.build ferryRegistry).result = .ok tree ∧
      (tree.run ["ferry", "lod", "--loud", "load", "car"]).result = .ok .ran ∧
      tree.grammar.parse ["ferry", "lod", "--loud", "load", "car"] = .ok chain ∧
      (tree.run ["ferry", "lod", "--loud", "load", "car"]).call? = some call ∧
      chain.words = ["lod", "car"] ∧ call.handed = ["car"] ∧
      ¬ chain.words.Sublist call.handed ∧
      ∃ advice, (tree.run ["ferry", "lod"]).result =
        .error (.unknownCommand "lod" "ferry" advice) := by
  have ran : (ferryTool.build ferryRegistry).result.map (fun tree =>
      ((tree.run ["ferry", "lod", "--loud", "load", "car"]).result,
        (tree.grammar.parse ["ferry", "lod", "--loud", "load", "car"]).map Chain.words,
        (tree.run ["ferry", "lod", "--loud", "load", "car"]).call?.map Call.handed)) =
      .ok (.ok .ran, .ok ["lod", "car"], some ["car"]) := by rfl
  have refused : ∃ advice, (ferryTool.build ferryRegistry).result.map (fun tree =>
      (tree.run ["ferry", "lod"]).result) =
        .ok (.error (.unknownCommand "lod" "ferry" advice)) := ⟨_, rfl⟩
  cases built : (ferryTool.build ferryRegistry).result with
  | error cause =>
    rw [built] at ran
    cases ran
  | ok tree =>
    rw [built] at ran refused
    obtain ⟨ended, rest⟩ := Prod.mk.inj (Except.ok.inj ran)
    obtain ⟨words, given⟩ := Prod.mk.inj rest
    obtain ⟨call, called, given⟩ := Option.map_eq_some_iff.mp given
    obtain ⟨advice, refused⟩ := refused
    cases read : tree.grammar.parse ["ferry", "lod", "--loud", "load", "car"] with
    | error cause =>
      rw [read] at words
      cases words
    | ok chain =>
      rw [read] at words
      have words : chain.words = ["lod", "car"] := Except.ok.inj words
      refine ⟨tree, chain, call, rfl, ended, read, called, words, given, ?_, advice,
        Except.ok.inj refused⟩
      rw [words, given]
      decide

end ToolTree
