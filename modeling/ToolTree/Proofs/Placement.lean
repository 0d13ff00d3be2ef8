import ToolTree.Proofs.Alike
import ToolTree.Proofs.PlainWords
import ToolTree.Proofs.Scoping

/-!
Where on a line a persistent flag may stand.

A flag that is given in one token is recorded by the command that is read at that point of the
line. Beside the line without the flag, the line with it selects the same commands with the same
words and the same settings under all other names (`Chain.Gains`); under the name of the flag, what
the line gives counts on the selected command, for nothing below that point gives the flag and a
default never hides what the line gave above it. So the place of a persistent flag does not matter
(`run_flag_anywhere`).
-/

namespace ToolTree

open CommandLine (Argument Chain FlagType Form Level Payload Progress Setting Settings UsageError
  View readTokens)

/-! ### Words that lead to a command -/

namespace CommandDecl

/-- The words `words`, each the name or an alias of a command right below, lead from the first
command down to the last one, past the commands `above`. -/
inductive Reaches : CommandDecl → List CommandFields → List String → CommandDecl → Prop where
  | here (c : CommandDecl) : Reaches c [] [] c
  | down {c : CommandDecl} {key word : String} {child : CommandDecl} {above : List CommandFields}
      {words : List String} {d : CommandDecl} :
      (key, child) ∈ c.commands → child.isCalled key word = true → Reaches child above words d →
      Reaches c (c.toCommandFields :: above) (word :: words) d

theorem Reaches.trans {c d e : CommandDecl} {above between : List CommandFields}
    {outer inner : List String} (outside : c.Reaches above outer d)
    (inside : d.Reaches between inner e) : c.Reaches (above ++ between) (outer ++ inner) e := by
  induction outside with
  | here => exact inside
  | down entry called _ ih => exact .down entry called (ih inside)

theorem Reaches.split {c e : CommandDecl} {above : List CommandFields}
    {before after : List String} (reaches : c.Reaches above (before ++ after) e) :
    ∃ upper d lower, above = upper ++ lower ∧ c.Reaches upper before d ∧
      d.Reaches lower after e := by
  induction before generalizing c above with
  | nil => exact ⟨[], c, above, rfl, .here c, reaches⟩
  | cons word rest ih =>
    cases reaches with
    | down entry called reaches =>
      obtain ⟨upper, d, lower, rfl, outside, inside⟩ := ih reaches
      exact ⟨_ :: upper, d, lower, rfl, .down entry called outside, inside⟩

theorem Reaches.mem_way {c d : CommandDecl} {above : List CommandFields} {words : List String}
    (reaches : c.Reaches above words d) : c.toCommandFields ∈ above ++ [d.toCommandFields] := by
  cases reaches with
  | here => exact List.mem_singleton_self _
  | down => exact List.mem_cons_self

end CommandDecl

/-! ### Settings -/

namespace CommandLine

/-- The line gives no value: there is a default at most. -/
def Setting.Rests (setting? : Option Setting) : Prop :=
  ∀ setting, setting? = some setting → setting.origin = .default

namespace Setting

variable {outer inner : Option Setting} {payload : Payload}

theorem Rests.deeper (above : Rests outer) (below : Rests inner) :
    Rests (Setting.deeper outer inner) := by
  intro setting counts
  rcases deeper_eq_some counts with upper | lower
  · exact above setting upper
  · exact below setting lower

/-- Below a value from the line, a default does not count. -/
theorem Rests.deeper_line (below : Rests inner) :
    Setting.deeper (some ⟨.line, payload⟩) inner = some ⟨.line, payload⟩ := by
  cases inner with
  | none => rfl
  | some setting =>
    obtain ⟨origin, default⟩ := setting
    cases below _ rfl
    rfl

/-- Above a value from the line, nothing counts. -/
theorem deeper_of_line (outer : Option Setting) :
    Setting.deeper outer (some ⟨.line, payload⟩) = some ⟨.line, payload⟩ := by
  rcases outer with _ | ⟨_ | _, other⟩ <;> rfl

end Setting

theorem FlagType.origin_of_default {type : FlagType} {setting : Setting}
    (default : type.default? = some setting) : setting.origin = .default := by
  cases type with
  | string default? =>
    obtain ⟨text, -, rfl⟩ := Option.map_eq_some_iff.mp default
    rfl
  | bool value =>
    cases default
    rfl
  | int default? =>
    obtain ⟨n, -, rfl⟩ := Option.map_eq_some_iff.mp default
    rfl
  | stringSlice => cases default

/-- What a value denotes depends on the type and not on the default. -/
theorem FlagType.payload_congr {type type' : FlagType} (same : type.kind = type'.kind)
    (text : String) : type.payload text = type'.payload text := by
  cases type with
  | string =>
    cases type' with
    | string => rfl
    | bool => cases same
    | int => cases same
    | stringSlice => cases same
  | bool =>
    cases type' with
    | string => cases same
    | bool => rfl
    | int => cases same
    | stringSlice => cases same
  | int =>
    cases type' with
    | string => cases same
    | bool => cases same
    | int => rfl
    | stringSlice => cases same
  | stringSlice =>
    cases type' with
    | string => cases same
    | bool => cases same
    | int => cases same
    | stringSlice => rfl

theorem Settings.rests_withDefaults (arguments : List Argument) (name : String) :
    Setting.Rests (Keyed.find? name (withDefaults [] arguments)) := by
  intro setting found
  rcases find?_withDefaults_cases found with line | ⟨arg, -, -, type, -, default⟩
  · cases line
  · exact FlagType.origin_of_default default

/-! ### One more value -/

/-- The progress of a command on which a value was given and nothing else. -/
def Progress.given (p : Progress) (name : String) (payload : Payload) : Progress :=
  { p with settings := [(name, ⟨.line, payload⟩)] }

/-- Two levels of the same command with the same words, whose settings differ at one name at
most. -/
structure Level.SameBut (name : String) (level level' : Level) : Prop where
  view : level.view = level'.view
  words : level.words = level'.words
  settings : ∀ other, other ≠ name →
    Keyed.find? other level.settings = Keyed.find? other level'.settings

/-- Two chains of the same commands with the same words. Settings differ at one name at most, which
the commands hand down: the line gives it a value for the second chain and none for the first. -/
structure Chain.Gains (name : String) (payload : Payload) (chain chain' : Chain) : Prop where
  alike : Chain.Alike (Level.SameBut name) chain chain'
  persistent : name ∈ chain.persistentNames
  rests : Setting.Rests (chain.merged name)
  given : chain'.merged name = some ⟨.line, payload⟩

/-- A name that a view hands down and that a line need not give. -/
structure View.Offers (view : View) (name : String) : Prop where
  persistent : ∃ arg ∈ view.arguments, arg.persistent = true ∧ arg.name = name
  optional : ∀ arg ∈ view.arguments, arg.required = true → arg.name ≠ name

theorem Level.SameBut.refl (name : String) (level : Level) : level.SameBut name level :=
  ⟨rfl, rfl, fun _ _ => rfl⟩

theorem Chain.persistentNames_above (level : Level) (below : Chain) :
    (Chain.above level below).persistentNames =
      (level.view.arguments.filter Argument.persistent).map Argument.name ++
        below.persistentNames :=
  List.flatMap_cons

theorem View.Offers.mem_names {view : View} {name : String} (offers : view.Offers name) :
    name ∈ (view.arguments.filter Argument.persistent).map Argument.name := by
  obtain ⟨arg, mem, persistent, rfl⟩ := offers.persistent
  exact List.mem_map_of_mem (List.mem_filter.mpr ⟨mem, persistent⟩)

namespace Chain.Gains

variable {name : String} {payload : Payload}

/-- The command above where a value is given does not give it. -/
theorem above {level : Level} {below below' : Chain}
    (rests : Setting.Rests (Keyed.find? name level.settings))
    (gains : Chain.Gains name payload below below') :
    Chain.Gains name payload (.above level below) (.above level below') where
  alike := .above (.refl name level) gains.alike
  persistent := by
    rw [persistentNames_above]
    exact List.mem_append_right _ gains.persistent
  rests := rests.deeper gains.rests
  given := by
    rw [merged, gains.given]
    exact Setting.deeper_of_line _

variable {chain chain' : Chain} (gains : Chain.Gains name payload chain chain')
include gains

/-- With one more value, all other names are set as before. -/
theorem setting?_eq : chain'.setting? = fun other =>
    if other = name then some ⟨.line, payload⟩ else chain.setting? other := by
  have persistentNames : chain.persistentNames = chain'.persistentNames :=
    persistentNames_congr (gains.alike.map_levels fun _ _ same => by rw [same.view])
  funext other
  by_cases named : other = name
  · rw [if_pos named, named, setting?, if_pos (persistentNames ▸ gains.persistent), gains.given]
  · have merged : chain.merged other = chain'.merged other :=
      gains.alike.merged fun _ _ same => same.settings other named
    rw [if_neg named, setting?, setting?, persistentNames, merged,
      gains.alike.leaf.settings other named]

theorem views : chain.levels.map (·.view) = chain'.levels.map (·.view) :=
  gains.alike.map_levels fun _ _ same => same.view

end Chain.Gains

/-! ### Reading -/

section Reading

variable {view : View} {p : Progress} {name : String} {payload : Payload}

theorem Progress.finish_of_idle (idle : p.pending? = none) :
    p.finish view =
      if view.arguments.any fun arg => arg.required && (Keyed.find? arg.name p.settings).isNone then
        .error .missingRequired
      else .ok ⟨view, p.settings.withDefaults view.arguments, p.words⟩ := by
  rw [finish, flush, idle]
  rfl

/-- A command on which nothing is given rests at its defaults. -/
theorem Progress.rests_of_finish (idle : p.pending? = none) (fresh : p.settings = [])
    {level : Level} (finished : p.finish view = .ok level) (name : String) :
    Setting.Rests (Keyed.find? name level.settings) := by
  rw [finish_of_idle idle, fresh] at finished
  split at finished
  · cases finished
  · cases finished
    exact Settings.rests_withDefaults view.arguments name

/-- The end of a command on which one value is given, beside the end without it. -/
theorem Progress.finish_given (offers : view.Offers name) (idle : p.pending? = none)
    (fresh : p.settings = []) :
    Agree (fun level level' => level.view = view ∧ level.SameBut name level' ∧
        Setting.Rests (Keyed.find? name level.settings) ∧
        Keyed.find? name level'.settings = some ⟨.line, payload⟩)
      (p.finish view) ((p.given name payload).finish view) := by
  have kept : ∀ other, other ≠ name →
      Keyed.find? other (p.given name payload).settings = Keyed.find? other p.settings := by
    intro other ne
    rw [fresh]
    exact if_neg (Ne.symm ne)
  have asked : (view.arguments.any fun arg =>
        arg.required && (Keyed.find? arg.name (p.given name payload).settings).isNone) =
      view.arguments.any fun arg => arg.required && (Keyed.find? arg.name p.settings).isNone := by
    rw [Bool.eq_iff_iff, List.any_eq_true, List.any_eq_true]
    refine exists_congr fun arg => and_congr_right fun mem => ?_
    cases required : arg.required with
    | false => rfl
    | true => rw [kept arg.name (offers.optional arg mem required)]
  rw [finish_of_idle idle, finish_of_idle (p := p.given name payload) idle, asked]
  split
  · exact .error _
  · refine .ok ⟨rfl, ⟨rfl, rfl, fun other ne => ?_⟩, ?_, ?_⟩
    · rw [Settings.find?_withDefaults_eq, Settings.find?_withDefaults_eq, kept other ne]
    · rw [fresh]
      exact Settings.rests_withDefaults view.arguments name
    · exact Settings.find?_withDefaults (if_pos rfl)

/-- Tokens without a dash give no value. -/
theorem rests_of_undashed {tokens : List String}
    (undashed : ∀ token ∈ tokens, token.toList.head? ≠ some '-') (idle : p.pending? = none)
    (fresh : p.settings = []) {chain : Chain} (read : readTokens view p tokens = .ok chain)
    (name : String) : Setting.Rests (chain.merged name) := by
  induction tokens generalizing view p chain with
  | nil =>
    obtain ⟨level, finished, read⟩ := bind_eq_ok_iff.mp read
    cases read
    exact Progress.rests_of_finish idle fresh finished name
  | cons token rest ih =>
    obtain ⟨first, others⟩ := List.forall_mem_cons.mp undashed
    have word : ∀ {chain}, (do readTokens view (← p.addToken view token) rest) = .ok chain →
        Setting.Rests (chain.merged name) := by
      intro chain read
      rw [Progress.addToken_undashed first idle] at read
      exact ih others (p := { p with afterWord := true, words := p.words ++ [token] }) idle fresh
        read
    rw [readTokens] at read
    split at read
    · split at read
      · obtain ⟨below, readBelow, read⟩ := bind_eq_ok_iff.mp read
        obtain ⟨level, finished, read⟩ := bind_eq_ok_iff.mp read
        cases read
        have above := Progress.rests_of_finish idle fresh finished name
        exact above.deeper (ih others rfl rfl readBelow)
      · split at read
        · cases read
        · exact word read
    · exact word read

/-- A value is given on a command, and the rest of the line, which gives none, is read by one
below. -/
theorem gains_of_called (offers : view.Offers name) (idle : p.pending? = none)
    (fresh : p.settings = []) (reads : p.readsCommands = true) {token : String}
    {rest : List String} {grammar : Grammar}
    (called : view.grammar.subcommand? token = some grammar)
    (rests : ∀ below, readTokens (view.child grammar) {} rest = .ok below →
      Setting.Rests (below.merged name)) :
    Agree (Chain.Gains name payload) (readTokens view p (token :: rest))
      (readTokens view (p.given name payload) (token :: rest)) := by
  rw [readTokens_called reads called, readTokens_called (p := p.given name payload) reads called]
  cases read : readTokens (view.child grammar) {} rest with
  | error e => exact .error e
  | ok below =>
    refine (Progress.finish_given offers idle fresh).bind ?_
    rintro level level' ⟨rfl, same, atTop, given⟩
    have atRest := rests below read
    refine .ok ⟨.above same (.refl (.refl name) below), ?_, atTop.deeper atRest, ?_⟩
    · rw [Chain.persistentNames_above]
      exact List.mem_append_left _ offers.mem_names
    · rw [Chain.merged, given]
      exact atRest.deeper_line

/-- A value is given on a command, and words follow. -/
theorem gains_of_undashed (offers : view.Offers name) (idle : p.pending? = none)
    (fresh : p.settings = []) {tokens : List String}
    (undashed : ∀ token ∈ tokens, token.toList.head? ≠ some '-') :
    Agree (Chain.Gains name payload) (readTokens view p tokens)
      (readTokens view (p.given name payload) tokens) := by
  induction tokens generalizing p with
  | nil =>
    refine (Progress.finish_given offers idle fresh).bind ?_
    rintro level level' ⟨rfl, same, rests, given⟩
    refine .ok ⟨.last same, ?_, rests, given⟩
    exact List.mem_flatMap.mpr ⟨level, List.mem_singleton_self level, offers.mem_names⟩
  | cons token rest ih =>
    obtain ⟨first, others⟩ := List.forall_mem_cons.mp undashed
    have word : Agree (Chain.Gains name payload) (do readTokens view (← p.addToken view token) rest)
        (do readTokens view (← (p.given name payload).addToken view token) rest) := by
      rw [Progress.addToken_undashed first idle,
        Progress.addToken_undashed (p := p.given name payload) first idle]
      exact ih (p := { p with afterWord := true, words := p.words ++ [token] }) idle fresh others
    have sameReads : (p.given name payload).readsCommands = p.readsCommands := rfl
    cases reads : p.readsCommands with
    | false =>
      rw [readTokens, readTokens, sameReads, reads]
      exact word
    | true =>
      cases called : view.grammar.subcommand? token with
      | some grammar =>
        refine gains_of_called offers idle fresh reads called fun below read => ?_
        exact rests_of_undashed others rfl rfl read name
      | none =>
        rw [readTokens, readTokens, sameReads, reads]
        simp only [if_true, called]
        split
        · exact .error _
        · exact word

/-! ### A flag in one token -/

variable {arg : Argument} {type : FlagType} {value : String}

theorem Form.of_attached (spelt : '=' ∉ name.toList) (value : String) :
    Form.of ("--" ++ name ++ "=" ++ value) = .long name (some value) := by
  have letters : ("--" ++ name ++ "=" ++ value).toList =
      '-' :: '-' :: (name.toList ++ '=' :: value.toList) := by
    simp [String.toList_append]
  have apart : ∀ c ∈ name.toList, (c != '=') = true := by
    intro c mem
    rw [bne_iff_ne]
    rintro rfl
    exact spelt mem
  rw [Form.of, letters]
  cases split : name.toList ++ '=' :: value.toList with
  | nil => simp at split
  | cons c rest =>
    rw [← split]
    simp [List.takeWhile_append_of_pos apart, List.dropWhile_append_of_pos apart]

/-- A flag with its value in one token is recorded on the command that is read. -/
theorem Progress.addToken_attached (named : view.named? name = some arg)
    (role : arg.role = .flag type) (spelt : '=' ∉ name.toList) (value : String) :
    ({} : Progress).addToken view ("--" ++ name ++ "=" ++ value) =
      (type.payload value).map fun payload => ({} : Progress).given name payload := by
  have nameEq : arg.name = name := by
    have found := List.find?_some named
    rw [Bool.and_eq_true, beq_iff_eq] at found
    exact found.2
  have long : ({} : Progress).addToken view ("--" ++ name ++ "=" ++ value) =
      ({} : Progress).addLong view name (some value) := by
    rw [addToken, Form.of_attached spelt]
    rfl
  rw [long, addLong, named]
  simp only [role, nameEq]
  cases read : type.payload value with
  | error e =>
    simp [addFlag, flush, Settings.store, Keyed.find?, read, bind, Except.bind, Except.map]
  | ok payload =>
    simp [addFlag, flush, Settings.store, Keyed.find?, read, bind, Except.bind, Except.map, given,
      Keyed.insert, pure, Except.pure]

end Reading

end CommandLine

/-! ### Lines in a built tree -/

/-- A flag with its value, in one token. -/
def FlagDecl.attached (flag : FlagDecl) (value : String) : String :=
  "--" ++ flag.name ++ "=" ++ value

/-- A line beside the same line without a flag: its value is recorded, or refused. -/
inductive Adds (name : String) (value : Except UsageError Payload)
    (base line : Except UsageError Chain) : Prop where
  | given {payload : Payload} : value = .ok payload →
      Agree (Chain.Gains name payload) base line → Adds name value base line
  | refused {e : UsageError} : value = .error e → line = .error e → Adds name value base line

namespace Stands

variable {registry : Registry} {above : List CommandFields} {path : String} {c : CommandDecl}
  {view : View} {node : Node}

theorem named?_of_yields (h : Stands registry above path c view node) {flag : FlagDecl}
    {arg : Argument} (mem : arg ∈ view.arguments) (yields : flag.Yields arg) :
    view.named? flag.name = some arg := by
  cases found : view.named? flag.name with
  | none =>
    obtain ⟨type, role, -⟩ := yields.role
    have missed := List.find?_eq_none.mp found arg mem
    simp [Argument.isNamed, role, yields.name] at missed
  | some other =>
    have named := List.find?_some found
    rw [Bool.and_eq_true, beq_iff_eq, ← yields.name] at named
    rw [List.inj_on_of_nodup_map h.names_nodup (List.mem_of_find?_eq_some found) mem named.2]

/-- A command offers each persistent flag in sight. -/
theorem offers (h : Stands registry above path c view node) {flag : FlagDecl}
    (handed : flag ∈ persistentFlags (above ++ [c.toCommandFields])) : view.Offers flag.name := by
  obtain ⟨-, -, -, persistent⟩ := mem_persistentFlags_iff.mp handed
  obtain ⟨arg, mem, yields⟩ := h.argument_of_visible (mem_visibleFlags_of_persistent handed)
  refine ⟨⟨arg, mem, yields.persistent.trans persistent, yields.name⟩, ?_⟩
  intro other mem' required same
  have twin : other = arg :=
    List.inj_on_of_nodup_map h.names_nodup mem' mem (same.trans yields.name.symm)
  rw [twin, yields.required, persistent, Bool.not_true, Bool.and_false] at required
  cases required

/-- A word that names a declared command right below selects it. -/
theorem subcommand?_of_entry (h : Stands registry above path c view node) {key word : String}
    {child : CommandDecl} (entry : (key, child) ∈ c.commands)
    (called : child.isCalled key word = true) :
    ∃ grammar path' childNode, view.grammar.subcommand? word = some grammar ∧
      Stands registry (above ++ [c.toCommandFields]) path' child (view.child grammar)
        childNode := by
  obtain ⟨grammar, mem, ⟨named, aliased⟩, childNode, -, stands⟩ := h.command_of_entry entry
  refine ⟨grammar, _, childNode, h.subcommand?_of_isCalled mem ?_, stands⟩
  rw [CommandLine.Grammar.isCalled, named, aliased]
  exact called

/-- A word that names no declared command right below selects none. -/
theorem subcommand?_eq_none (h : Stands registry above path c view node) {word : String}
    (free : ∀ key child, (key, child) ∈ c.commands → child.isCalled key word = false) :
    view.grammar.subcommand? word = none := by
  have selected := h.subcommand? word
  generalize spelt : List.find? _ c.commands = entry? at selected
  generalize view.grammar.subcommand? word = found at selected ⊢
  cases selected with
  | none => rfl
  | @some entry grammar same =>
    have called : entry.2.isCalled entry.1 word = true := by simpa using List.find?_some spelt
    rw [free entry.1 entry.2 (List.mem_of_find?_eq_some spelt)] at called
    cases called

/-- Words that lead to a command and words without a dash give no value. -/
theorem rests_of_reaches (h : Stands registry above path c view node)
    {between : List CommandFields} {inner words : List String} {d : CommandDecl}
    (reaches : c.Reaches between inner d)
    (undashed : ∀ word ∈ words, word.toList.head? ≠ some '-') {chain : Chain}
    (read : readTokens view {} (inner ++ words) = .ok chain) (name : String) :
    Setting.Rests (chain.merged name) := by
  induction reaches generalizing above path view node chain with
  | here => exact CommandLine.rests_of_undashed undashed rfl rfl read name
  | down entry called _ ih =>
    obtain ⟨grammar, path', childNode, selected, stands⟩ := h.subcommand?_of_entry entry called
    rw [List.cons_append, CommandLine.readTokens_called rfl selected] at read
    obtain ⟨below, readBelow, read⟩ := bind_eq_ok_iff.mp read
    obtain ⟨level, finished, read⟩ := bind_eq_ok_iff.mp read
    cases read
    have atTop := Progress.rests_of_finish rfl rfl finished name
    exact atTop.deeper (ih stands readBelow)

/-- A persistent flag on the command that is read adds its value to what the rest of the line
gives. -/
theorem adds_here (h : Stands registry above path c view node) {flag : FlagDecl}
    (handed : flag ∈ persistentFlags (above ++ [c.toCommandFields]))
    (spelt : '=' ∉ flag.name.toList) (value : String)
    (free : ∀ key child, (key, child) ∈ c.commands →
      child.isCalled key (flag.attached value) = false)
    {between : List CommandFields} {inner words : List String} {d : CommandDecl}
    (reaches : c.Reaches between inner d)
    (undashed : ∀ word ∈ words, word.toList.head? ≠ some '-') :
    ∃ type : FlagType, flag.flagKind = .ok type.kind ∧
      Adds flag.name (type.payload value) (readTokens view {} (inner ++ words))
        (readTokens view {} (flag.attached value :: (inner ++ words))) := by
  obtain ⟨arg, mem, yields⟩ := h.argument_of_visible (mem_visibleFlags_of_persistent handed)
  obtain ⟨type, role, typed⟩ := yields.role
  have offers := h.offers handed
  have notHelp : ¬ (view.hasHelpCommand = true ∧ flag.attached value = CommandLine.helpName) := by
    rintro ⟨-, same⟩
    have letters := congrArg (fun token => token.toList.head?) same
    simp [FlagDecl.attached, String.toList_append, CommandLine.helpName] at letters
  have added := Progress.addToken_attached (h.named?_of_yields mem yields) role spelt value
  have line : readTokens view {} (flag.attached value :: (inner ++ words)) =
      ({} : Progress).addToken view (flag.attached value) >>= fun p =>
        readTokens view p (inner ++ words) := by
    have reads : ({} : Progress).readsCommands = true := rfl
    rw [readTokens, reads]
    simp only [if_true, h.subcommand?_eq_none free, notHelp, if_false]
  rw [FlagDecl.attached, added, ← FlagDecl.attached] at line
  refine ⟨type, typed, ?_⟩
  cases denoted : type.payload value with
  | error e =>
    rw [denoted] at line
    exact .refused rfl line
  | ok payload =>
    rw [denoted] at line
    refine .given rfl ?_
    rw [line]
    cases reaches with
    | here => exact CommandLine.gains_of_undashed offers rfl rfl undashed
    | down entry called further =>
      obtain ⟨grammar, path', childNode, selected, stands⟩ := h.subcommand?_of_entry entry called
      refine CommandLine.gains_of_called offers rfl rfl rfl selected fun below read => ?_
      exact stands.rests_of_reaches further undashed read flag.name

/-- A persistent flag anywhere on the way adds its value to what the line gives without it. -/
theorem adds (h : Stands registry above path c view node) {flag : FlagDecl} {value : String}
    (spelt : '=' ∉ flag.name.toList) {between lower : List CommandFields}
    {front back words : List String} {d e : CommandDecl} (reaches : c.Reaches between front d)
    (handed : flag ∈ persistentFlags (above ++ between ++ [d.toCommandFields]))
    (free : ∀ key child, (key, child) ∈ d.commands →
      child.isCalled key (flag.attached value) = false)
    (further : d.Reaches lower back e)
    (undashed : ∀ word ∈ words, word.toList.head? ≠ some '-') :
    ∃ type : FlagType, flag.flagKind = .ok type.kind ∧
      Adds flag.name (type.payload value) (readTokens view {} (front ++ (back ++ words)))
        (readTokens view {} (front ++ flag.attached value :: (back ++ words))) := by
  -- The induction is on the words in front of the flag: they are read the same with it and without.
  induction reaches generalizing above path view node with
  | here =>
    rw [List.append_nil] at handed
    rw [List.nil_append, List.nil_append]
    exact h.adds_here handed spelt value free further undashed
  | @down c key word child between front d entry called reaches ih =>
    obtain ⟨grammar, path', childNode, selected, stands⟩ := h.subcommand?_of_entry entry called
    have handed' : flag ∈
        persistentFlags (above ++ [c.toCommandFields] ++ between ++ [d.toCommandFields]) := by
      simpa using handed
    obtain ⟨type, typed, adds⟩ := ih stands handed' free further
    refine ⟨type, typed, ?_⟩
    rw [List.cons_append, List.cons_append, CommandLine.readTokens_called rfl selected,
      CommandLine.readTokens_called rfl selected]
    cases adds with
    | refused failed read => exact .refused failed (by rw [read]; rfl)
    | given denoted agree =>
      refine .given denoted (agree.bind fun below below' gains => ?_)
      cases finished : ({} : Progress).finish view with
      | error cause => exact .error cause
      | ok level => exact .ok (gains.above (Progress.rests_of_finish rfl rfl finished flag.name))

end Stands

/-- Two lines that add the same value to the same line are answered alike. -/
theorem Adds.resolve_eq {tree : Tree} {name : String} {value : Except UsageError Payload}
    {base : Except UsageError Chain} {program : String} {tokens tokens' : List String}
    (adds : Adds name value base (tree.grammar.parse (program :: tokens)))
    (adds' : Adds name value base (tree.grammar.parse (program :: tokens'))) :
    tree.resolve (program :: tokens) = tree.resolve (program :: tokens') := by
  rw [Tree.resolve, Tree.resolve, List.head?_cons, List.head?_cons]
  cases adds with
  | refused failed read =>
    cases adds' with
    | refused failed' read' =>
      rw [failed] at failed'
      cases failed'
      rw [read, read']
    | given denoted =>
      rw [failed] at denoted
      cases denoted
  | given denoted agree =>
    cases adds' with
    | refused failed =>
      rw [denoted] at failed
      cases failed
    | given denoted' agree' =>
      rw [denoted] at denoted'
      cases denoted'
      generalize tree.grammar.parse (program :: tokens) = read at agree ⊢
      generalize tree.grammar.parse (program :: tokens') = read' at agree' ⊢
      cases agree with
      | error e =>
        cases agree'
        rfl
      | ok gains =>
        cases agree' with
        | ok gains' =>
          refine Tree.request_congr (gains.views.symm.trans gains'.views) ?_ ?_
          · exact gains.alike.leaf.words.symm.trans gains'.alike.leaf.words
          · rw [gains.setting?_eq, gains'.setting?_eq]

/-- A persistent flag means the same wherever it stands behind the command that declares it and
before the words, if its name holds no equals sign, so that it is the name that a line spells, and
if no command on the way has one right below that is called like the flag with its value. -/
theorem run_flag_anywhere {tool : ToolDecl} {registry : Registry} {tree : Tree}
    (built : (tool.build registry).result = .ok tree) {above between : List CommandFields}
    {outer inner : List String} {c d : CommandDecl} (outside : tool.tree.Reaches above outer c)
    (inside : c.Reaches between inner d) {flag : FlagDecl} (declared : flag ∈ c.flags)
    (persistent : flag.persistent = true) (spelt : '=' ∉ flag.name.toList) {value : String}
    (free : ∀ upper way e rest, way ++ rest = inner → c.Reaches upper way e →
      ∀ key child, (key, child) ∈ e.commands → child.isCalled key (flag.attached value) = false)
    (program : String) {words : List String}
    (undashed : ∀ word ∈ words, word.toList.head? ≠ some '-')
    {before after before' after' : List String} (split : before ++ after = inner)
    (split' : before' ++ after' = inner) :
    tree.run (program :: (outer ++ before ++ flag.attached value :: (after ++ words))) =
      tree.run (program :: (outer ++ before' ++ flag.attached value :: (after' ++ words))) := by
  have adds : ∀ before after, before ++ after = inner → ∃ type : FlagType,
      flag.flagKind = .ok type.kind ∧
        Adds flag.name (type.payload value)
          (tree.grammar.parse (program :: (outer ++ inner ++ words)))
          (tree.grammar.parse
            (program :: (outer ++ before ++ flag.attached value :: (after ++ words)))) := by
    intro before after split
    rw [← split] at inside
    obtain ⟨upper, e, lower, rfl, here, further⟩ := inside.split
    have handed : flag ∈ persistentFlags ([] ++ (above ++ upper) ++ [e.toCommandFields]) := by
      refine mem_persistentFlags_iff.mpr ⟨c.toCommandFields, ?_, declared, persistent⟩
      rw [List.nil_append, List.append_assoc]
      exact List.mem_append_right _ here.mem_way
    have added := (stands_root built).adds spelt (outside.trans here) handed
      (free upper before e after split here) further undashed
    rwa [← List.append_assoc (outer ++ before), List.append_assoc outer before after, split]
      at added
  obtain ⟨type, typed, adds₁⟩ := adds before after split
  obtain ⟨type', typed', adds₂⟩ := adds before' after' split'
  rw [typed, Except.ok.injEq] at typed'
  rw [← CommandLine.FlagType.payload_congr typed' value] at adds₂
  rw [Tree.run, Tree.run, adds₁.resolve_eq adds₂]

/-- How a signal sounds. -/
def toneFlag : FlagDecl :=
  { FlagDecl.ofKind "tone" .string "How it sounds" with persistent := true }

/-- A command without commands below it. -/
def sendCommand : CommandDecl where
  useLine := "send"
  aliases := ["s"]
  summary := "Send a signal"
  handler := "send"

/-- A tool with a flag whose name holds an equals sign, and with a command that is called like
another flag with a value. -/
def signalTool : ToolDecl where
  name := "signal"
  root := {
    useLine := "signal"
    summary := "Send signals"
    flags := [
      FlagDecl.ofKind "a" .string "First",
      { FlagDecl.ofKind "a=b" .string "Both" with persistent := true },
      toneFlag] }
  commands := [
    ("low", { useLine := "--tone=low", summary := "Send a low signal", handler := "low" }),
    ("send", sendCommand)]

/-- Functions for `send` and for the command that is called like a flag. -/
def signalRegistry : Registry :=
  .ofList [("low", .handler fun _ _ => .ok ()), ("send", .handler fun _ _ => .ok ())]

theorem run_flag_anywhere_signal :
    ∃ tree call, (signalTool.build signalRegistry).result = .ok tree ∧
      tree.run ["signal", "--tone=high", "s", "now"] =
        tree.run ["signal", "s", "--tone=high", "now"] ∧
      (tree.run ["signal", "--tone=high", "s", "now"]).call? = some call ∧
      call.invocation.path = "signal send" ∧ call.words = ["now"] ∧
      call.invocation.getString "tone" = .ok "high" := by
  have read : (signalTool.build signalRegistry).result.map (fun tree =>
      (tree.run ["signal", "--tone=high", "s", "now"]).call?.map fun call =>
        (call.invocation.path, call.words, call.invocation.getString "tone")) =
      .ok (some ("signal send", ["now"], .ok "high")) := by rfl
  obtain ⟨tree, built, read⟩ := map_eq_ok_iff.mp read
  obtain ⟨call, called, answers⟩ := Option.map_eq_some_iff.mp read
  obtain ⟨path, words, value⟩ := by simpa only [Prod.mk.injEq] using answers
  have entry : ("send", sendCommand) ∈ signalTool.tree.commands := .tail _ (.head _)
  have inside : signalTool.tree.Reaches [signalTool.root.toCommandFields] ["s"] sendCommand :=
    .down entry rfl (.here _)
  have free : ∀ upper way e rest, way ++ rest = ["s"] →
      signalTool.tree.Reaches upper way e → ∀ key child, (key, child) ∈ e.commands →
        child.isCalled key (toneFlag.attached "high") = false := by
    intro upper way e rest split reaches key child entry
    cases reaches with
    | here =>
      rcases List.mem_cons.mp entry with same | entry
      · cases same
        rfl
      · cases List.mem_singleton.mp entry
        rfl
    | down entry' called reaches =>
      obtain ⟨rfl, -⟩ := List.cons.inj split
      rcases List.mem_cons.mp entry' with same | entry'
      · cases same
        cases called
      · cases List.mem_singleton.mp entry'
        cases reaches with
        | here => cases entry
        | down entry'' => cases entry''
  have declared : toneFlag ∈ signalTool.tree.flags := .tail _ (.tail _ (.head _))
  have undashed : ∀ word ∈ ["now"], word.toList.head? ≠ some '-' := by decide
  have atFront : [] ++ ["s"] = ["s"] := rfl
  have behind : ["s"] ++ [] = ["s"] := rfl
  have same := run_flag_anywhere built (.here signalTool.tree) inside declared rfl (by decide)
    free "signal" undashed atFront behind
  exact ⟨tree, call, built, same, called, path, words, value⟩

/-- Neither condition can be left out: with `--a=b=v` the flag `a` is met where it is in sight, and
no flag elsewhere; and `--tone=low` selects a command where one is called so. -/
theorem run_of_signal :
    ∃ tree, (signalTool.build signalRegistry).result = .ok tree ∧
      (∃ call, (tree.run ["signal", "--a=b=v", "send"]).call? = some call ∧
        call.invocation.path = "signal send") ∧
      (tree.run ["signal", "send", "--a=b=v"]).call?.isNone = true ∧
      (∃ call, (tree.run ["signal", "--tone=low", "send"]).call? = some call ∧
        call.invocation.path = "signal --tone=low") ∧
      ∃ call, (tree.run ["signal", "send", "--tone=low"]).call? = some call ∧
        call.invocation.path = "signal send" := by
  have answers : (signalTool.build signalRegistry).result.map (fun tree =>
      [["--a=b=v", "send"], ["send", "--a=b=v"], ["--tone=low", "send"],
        ["send", "--tone=low"]].map fun tokens =>
          (tree.run ("signal" :: tokens)).call?.map fun call => call.invocation.path) =
      .ok [some "signal send", none, some "signal --tone=low", some "signal send"] := by rfl
  obtain ⟨tree, built, answers⟩ := map_eq_ok_iff.mp answers
  simp only [List.map_cons, List.map_nil, List.cons.injEq, Option.map_eq_some_iff,
    Option.map_eq_none_iff] at answers
  obtain ⟨both, none, low, send, -⟩ := answers
  exact ⟨tree, built, both, by rw [none]; rfl, low, send⟩

end ToolTree
