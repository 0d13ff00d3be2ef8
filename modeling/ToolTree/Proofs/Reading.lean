import ToolTree.CommandLine.Matching
import ToolTree.Proofs.Sequencing

/-!
What the reading of a line keeps.

While a command is read, each setting is a value that the line gives to a flag of the view, of the
type of that flag (`Progress.Sound`); every token keeps this (`Progress.Sound.addToken`). So a line
that is not refused selects a chain that goes down from the view it started at, each command of it
read soundly to its end (`descends_of_readTokens`). Whatever is set on a command of the chain, by
the line or by a default, is set to values of a flag that the command sees
(`Chain.Descends.declared`).
-/

namespace ToolTree.CommandLine

/-- Values that a flag of a type can have on a line. -/
def FlagType.Stores : FlagType → Payload → Prop
  | .string _, .texts values => values.length = 1
  | .bool _, .bool _ => True
  | .int _, .int _ => True
  | .stringSlice, .texts _ => True
  | _, _ => False

/-- A view sees a flag with a name and a type. -/
def View.Declares (view : View) (name : String) (type : FlagType) : Prop :=
  ∃ arg ∈ view.arguments, arg.name = name ∧ arg.role = .flag type

/-- Settings that a line gives to flags of a view, each of the type of its flag. -/
def Settings.Sound (view : View) (settings : Settings) : Prop :=
  ∀ name setting, Keyed.find? name settings = some setting →
    setting.origin = .line ∧ ∃ type, view.Declares name type ∧ type.Stores setting.payload

/-- Progress whose settings are sound and which awaits values of flags of the view only. -/
structure Progress.Sound (view : View) (p : Progress) : Prop where
  settings : p.settings.Sound view
  pending : ∀ flag, p.pending? = some flag → view.Declares flag.name flag.type

/-! ### Settings -/

theorem Argument.role_of_flagType? {arg : Argument} {type : FlagType}
    (typed : arg.flagType? = some type) : arg.role = .flag type := by
  unfold flagType? at typed
  split at typed
  · next role =>
    cases typed
    exact role
  · cases typed
  · cases typed
  · cases typed

theorem FlagType.stores_of_payload {type : FlagType} {text : String} {payload : Payload}
    (ok : type.payload text = .ok payload) : type.Stores payload := by
  cases type with
  | string default? =>
    cases ok
    rfl
  | bool default =>
    simp only [FlagType.payload] at ok
    split at ok
    · cases ok
      trivial
    · split at ok
      · cases ok
        trivial
      · cases ok
  | int default? =>
    simp only [FlagType.payload] at ok
    split at ok
    · cases ok
      trivial
    · cases ok
  | stringSlice =>
    cases ok
    trivial

theorem FlagType.stores_of_default {type : FlagType} {setting : Setting}
    (default : type.default? = some setting) : type.Stores setting.payload := by
  cases type with
  | string default? =>
    obtain ⟨text, -, rfl⟩ := Option.map_eq_some_iff.mp default
    rfl
  | bool value =>
    cases default
    trivial
  | int default? =>
    obtain ⟨n, -, rfl⟩ := Option.map_eq_some_iff.mp default
    trivial
  | stringSlice => cases default

variable {view : View}

theorem Settings.Sound.insert {settings : Settings} (h : settings.Sound view) {name : String}
    {type : FlagType} (declared : view.Declares name type) {payload : Payload}
    (stores : type.Stores payload) :
    Settings.Sound view (Keyed.insert name ⟨.line, payload⟩ settings) := by
  intro other setting found
  by_cases same : name = other
  · subst same
    rw [Keyed.find?_insert_self] at found
    cases found
    exact ⟨rfl, type, declared, stores⟩
  · rw [Keyed.find?_insert_of_ne same] at found
    exact h other setting found

theorem Settings.Sound.store {settings settings' : Settings} (h : settings.Sound view)
    {name : String} {type : FlagType} (declared : view.Declares name type) {text : String}
    (ok : settings.store name type text = .ok settings') : settings'.Sound view := by
  unfold Settings.store at ok
  split at ok
  · rw [bind_eq_ok_iff] at ok
    obtain ⟨payload, read, ok⟩ := ok
    cases ok
    exact h.insert declared (FlagType.stores_of_payload read)
  · split at ok
    · cases ok
      exact h.insert declared trivial
    · cases ok

/-- The default that the first of some arguments with a name and a default gives. -/
def Argument.defaultOf? (name : String) (arguments : List Argument) : Option Setting :=
  arguments.findSome? fun arg =>
    if arg.name = name then arg.flagType?.bind FlagType.default? else none

/-- Adding defaults keeps what is set; any other name gets its default. -/
theorem Settings.find?_withDefaults_eq (settings : Settings) (arguments : List Argument)
    (name : String) : Keyed.find? name (settings.withDefaults arguments) =
      (Keyed.find? name settings).or (Argument.defaultOf? name arguments) := by
  unfold Settings.withDefaults
  induction arguments generalizing settings with
  | nil => rw [Argument.defaultOf?, List.findSome?_nil, Option.or_none, List.foldl_nil]
  | cons arg rest ih =>
    rw [List.foldl_cons, ih, Argument.defaultOf?, Argument.defaultOf?, List.findSome?_cons]
    by_cases named : arg.name = name
    · subst named
      rw [if_pos rfl]
      cases default : arg.flagType?.bind FlagType.default? with
      | none => rfl
      | some setting =>
        cases found : Keyed.find? arg.name settings with
        | none => simp [Keyed.find?_insert_self]
        | some earlier => simp [found]
    · rw [if_neg named]
      split
      · rw [Keyed.find?_insert_of_ne named]
      · rfl

/-- Defaults replace nothing that is set. -/
theorem Settings.find?_withDefaults {settings : Settings} {arguments : List Argument}
    {name : String} {setting : Setting} (found : Keyed.find? name settings = some setting) :
    Keyed.find? name (settings.withDefaults arguments) = some setting := by
  rw [find?_withDefaults_eq, found, Option.some_or]

/-- Once the defaults are added, every argument with a default is set. -/
theorem Settings.isSome_find?_withDefaults (settings : Settings)
    {arguments : List Argument} {arg : Argument} (mem : arg ∈ arguments) {type : FlagType}
    (typed : arg.flagType? = some type) {setting : Setting}
    (default : type.default? = some setting) :
    (Keyed.find? arg.name (settings.withDefaults arguments)).isSome = true := by
  rw [find?_withDefaults_eq, Option.isSome_or, Bool.or_eq_true]
  refine .inr (List.findSome?_isSome_iff.mpr ⟨arg, mem, ?_⟩)
  rw [if_pos rfl, typed, Option.bind_some, default]
  rfl

/-- What is set once the defaults are added was set before or is the default of a flag. -/
theorem Settings.find?_withDefaults_cases {settings : Settings} {arguments : List Argument}
    {name : String} {setting : Setting}
    (found : Keyed.find? name (settings.withDefaults arguments) = some setting) :
    Keyed.find? name settings = some setting ∨ ∃ arg ∈ arguments, arg.name = name ∧
      ∃ type, arg.role = .flag type ∧ type.default? = some setting := by
  rw [find?_withDefaults_eq, Option.or_eq_some_iff] at found
  rcases found with before | ⟨-, default⟩
  · exact .inl before
  · obtain ⟨arg, mem, default⟩ := List.exists_of_findSome?_eq_some default
    split at default
    · next named =>
      obtain ⟨type, typed, default⟩ := Option.bind_eq_some_iff.mp default
      exact .inr ⟨arg, mem, named, type, Argument.role_of_flagType? typed, default⟩
    · cases default

/-! ### One token -/

namespace Progress

theorem sound_empty : Sound view {} :=
  ⟨by simp [Settings.Sound, Keyed.find?], by simp⟩

variable {p p' : Progress}

theorem flush_eq_ok_iff :
    p.flush = .ok p' ↔ (p.pending? = none ∧ p' = p) ∨
      ∃ name type text settings, p.pending? = some ⟨name, type, some text⟩ ∧
        p.settings.store name type text = .ok settings ∧
        p' = { p with pending? := none, settings } := by
  unfold flush
  split
  · next idle => simp [idle, eq_comm]
  · next waiting => simp [waiting]
  · next name type text due =>
    simp only [due, bind_eq_ok_iff, pure_eq_ok_iff]
    simp only [reduceCtorEq, false_and, false_or, Option.some.injEq, Pending.mk.injEq]
    constructor
    · rintro ⟨settings, stored, rfl⟩
      exact ⟨name, type, text, settings, ⟨rfl, rfl, rfl⟩, stored, rfl⟩
    · rintro ⟨_, _, _, settings, ⟨rfl, rfl, rfl⟩, stored, rfl⟩
      exact ⟨settings, stored, rfl⟩

theorem Sound.flush (h : p.Sound view) (ok : p.flush = .ok p') :
    p'.Sound view ∧ p'.pending? = none := by
  rcases flush_eq_ok_iff.mp ok with ⟨idle, rfl⟩ | ⟨name, type, text, settings, due, stored, rfl⟩
  · exact ⟨h, idle⟩
  · have declared := h.pending _ due
    exact ⟨⟨h.settings.store declared stored, by simp⟩, rfl⟩

theorem Sound.addWord (h : p.Sound view) {token : String} (ok : p.addWord token = .ok p') :
    p'.Sound view := by
  obtain ⟨flushed, flush, ok⟩ := bind_eq_ok_iff.mp ok
  cases ok
  obtain ⟨sound, -⟩ := h.flush flush
  exact ⟨sound.settings, sound.pending⟩

theorem Sound.addValue (h : p.Sound view) {token : String} (ok : p.addValue token = .ok p') :
    p'.Sound view := by
  unfold Progress.addValue at ok
  split at ok
  · next name type waiting =>
    cases ok
    refine ⟨h.settings, fun flag due => ?_⟩
    cases due
    exact h.pending ⟨name, type, none⟩ waiting
  · exact h.addWord ok
  · exact h.addWord ok

theorem Sound.addFlag (h : p.Sound view) {name : String} {type : FlagType}
    (declared : view.Declares name type) {value? : Option String}
    (ok : p.addFlag name type value? = .ok p') : p'.Sound view := by
  obtain ⟨flushed, flush, ok⟩ := bind_eq_ok_iff.mp ok
  obtain ⟨sound, idle⟩ := h.flush flush
  split at ok
  · obtain ⟨settings, stored, ok⟩ := bind_eq_ok_iff.mp ok
    cases ok
    exact ⟨sound.settings.store declared stored, sound.pending⟩
  · obtain ⟨settings, stored, ok⟩ := bind_eq_ok_iff.mp ok
    cases ok
    exact ⟨sound.settings.store declared stored, sound.pending⟩
  · cases ok
    refine ⟨sound.settings, fun flag due => ?_⟩
    cases due
    exact declared

theorem askHelp_ne_ok : p.askHelp ≠ .ok p' := by
  intro ok
  obtain ⟨_, -, ok⟩ := bind_eq_ok_iff.mp ok
  cases ok

theorem askVersion_ne_ok : p.askVersion view ≠ .ok p' := by
  intro ok
  obtain ⟨_, -, ok⟩ := bind_eq_ok_iff.mp ok
  cases ok

theorem Sound.addLong (h : p.Sound view) {name : String} {value? : Option String}
    (ok : p.addLong view name value? = .ok p') : p'.Sound view := by
  unfold Progress.addLong at ok
  split at ok
  · cases ok
  · next arg named =>
    have seen : arg ∈ view.arguments := List.mem_of_find?_eq_some named
    split at ok
    · next type role => exact h.addFlag ⟨arg, seen, rfl, role⟩ ok
    · exact absurd ok askHelp_ne_ok
    · exact absurd ok askVersion_ne_ok
    · cases ok
    · cases ok
    · cases ok

theorem Sound.addLetters (h : p.Sound view) {letters : List Char}
    (ok : p.addLetters view letters = .ok p') : p'.Sound view := by
  induction letters generalizing p with
  | nil =>
    cases ok
    exact h
  | cons letter rest ih =>
    unfold Progress.addLetters at ok
    split at ok
    · cases ok
    · next arg lettered =>
      have seen : arg ∈ view.arguments := List.mem_of_find?_eq_some lettered
      split at ok
      · exact absurd ok askHelp_ne_ok
      · exact absurd ok askVersion_ne_ok
      · cases ok
      · next type text role => exact h.addFlag ⟨arg, seen, rfl, role⟩ ok
      · next type role => exact h.addFlag ⟨arg, seen, rfl, role⟩ ok
      · next type next others _ role =>
        split at ok
        · obtain ⟨added, flag, ok⟩ := bind_eq_ok_iff.mp ok
          exact ih (h.addFlag ⟨arg, seen, rfl, role⟩ flag) ok
        · exact h.addFlag ⟨arg, seen, rfl, role⟩ ok

/-- A token that selects no command below keeps the progress sound. -/
theorem Sound.addToken (h : p.Sound view) {token : String}
    (ok : p.addToken view token = .ok p') : p'.Sound view := by
  unfold Progress.addToken at ok
  split at ok
  · exact h.addWord ok
  · split at ok
    · split at ok
      · exact h.addValue ok
      · cases ok
        exact ⟨h.settings, h.pending⟩
    · split at ok
      · exact h.addValue ok
      · exact h.addLong ok
    · split at ok
      · exact h.addValue ok
      · exact h.addLetters ok
    · exact h.addValue ok

/-! ### The end of a command -/

theorem finish_eq_ok_iff {level : Level} :
    p.finish view = .ok level ↔ ∃ flushed, p.flush = .ok flushed ∧
      (∀ arg ∈ view.arguments, arg.required = true →
        (Keyed.find? arg.name flushed.settings).isSome = true) ∧
      level = ⟨view, flushed.settings.withDefaults view.arguments, flushed.words⟩ := by
  simp only [finish, bind_eq_ok_iff]
  refine exists_congr fun flushed => and_congr_right fun _ => ?_
  split
  · next missing =>
    simp only [reduceCtorEq, false_iff, not_and]
    intro given
    obtain ⟨arg, mem, missing⟩ := List.any_eq_true.mp missing
    rw [Bool.and_eq_true] at missing
    have set := given arg mem missing.1
    rw [Option.isNone_iff_eq_none.mp missing.2] at set
    cases set
  · next complete =>
    rw [pure_eq_ok_iff]
    constructor
    · rintro rfl
      refine ⟨fun arg mem required => ?_, rfl⟩
      cases set : Keyed.find? arg.name flushed.settings with
      | some setting => rfl
      | none =>
        have missing : (arg.required && (Keyed.find? arg.name flushed.settings).isNone) = true := by
          rw [required, set]
          rfl
        exact absurd (List.any_eq_true.mpr ⟨arg, mem, missing⟩) complete
    · rintro ⟨-, rfl⟩
      rfl

end Progress

/-! ### Chains -/

/-- A chain of commands that goes down from a view, each command read soundly to its end. -/
inductive Chain.Descends : View → Chain → Prop where
  | last {view : View} {p : Progress} {level : Level} :
      p.Sound view → p.finish view = .ok level → Descends view (.last level)
  | above {view : View} {p : Progress} {level : Level} {grammar : Grammar} {below : Chain} :
      p.Sound view → p.finish view = .ok level → grammar ∈ view.grammar.subcommands →
      Descends (view.child grammar) below → Descends view (.above level below)

/-- The first command of a chain. -/
def Chain.top : Chain → Level
  | .last level => level
  | .above level _ => level

theorem Chain.levels_eq (chain : Chain) : chain.levels = chain.top :: chain.levels.tail := by
  cases chain <;> rfl

/-- A line that is not refused selects a chain that goes down from the view it is read for. -/
theorem descends_of_readTokens {p : Progress} {tokens : List String} {chain : Chain}
    (h : p.Sound view) (ok : readTokens view p tokens = .ok chain) : chain.Descends view := by
  induction tokens generalizing view p chain with
  | nil =>
    obtain ⟨level, finished, ok⟩ := bind_eq_ok_iff.mp ok
    cases ok
    exact .last h finished
  | cons token rest ih =>
    unfold readTokens at ok
    split at ok
    · split at ok
      · next grammar called =>
        obtain ⟨below, read, ok⟩ := bind_eq_ok_iff.mp ok
        obtain ⟨level, finished, ok⟩ := bind_eq_ok_iff.mp ok
        cases ok
        exact .above h finished (List.mem_of_find?_eq_some called)
          (ih Progress.sound_empty read)
      · split at ok
        · cases ok
        · obtain ⟨next, added, ok⟩ := bind_eq_ok_iff.mp ok
          exact ih (h.addToken added) ok
    · obtain ⟨next, added, ok⟩ := bind_eq_ok_iff.mp ok
      exact ih (h.addToken added) ok

theorem Chain.Descends.top_view {chain : Chain} (h : chain.Descends view) :
    chain.top.view = view := by
  cases h with
  | last _ finished =>
    obtain ⟨_, -, -, rfl⟩ := Progress.finish_eq_ok_iff.mp finished
    rfl
  | above _ finished _ _ =>
    obtain ⟨_, -, -, rfl⟩ := Progress.finish_eq_ok_iff.mp finished
    rfl

/-- Every command of the chain was read soundly to its end. -/
theorem Chain.Descends.level {chain : Chain} (h : chain.Descends view) {level : Level}
    (mem : level ∈ chain.levels) :
    ∃ p : Progress, p.Sound level.view ∧ p.finish level.view = .ok level := by
  have readTo {view : View} {p : Progress} {level : Level} (sound : p.Sound view)
      (finished : p.finish view = .ok level) :
      ∃ p : Progress, p.Sound level.view ∧ p.finish level.view = .ok level := by
    have same : level.view = view := by
      obtain ⟨_, -, -, rfl⟩ := Progress.finish_eq_ok_iff.mp finished
      rfl
    rw [same]
    exact ⟨p, sound, finished⟩
  induction h with
  | last sound finished =>
    cases List.mem_singleton.mp mem
    exact readTo sound finished
  | above sound finished _ _ ih =>
    rcases List.mem_cons.mp mem with rfl | deeper
    · exact readTo sound finished
    · exact ih deeper

/-- What is set on a command of the chain is set to values of a flag that the command sees. -/
theorem Chain.Descends.declared {chain : Chain} (h : chain.Descends view) {level : Level}
    (mem : level ∈ chain.levels) {name : String} {setting : Setting}
    (found : Keyed.find? name level.settings = some setting) :
    ∃ type, level.view.Declares name type ∧ type.Stores setting.payload := by
  obtain ⟨p, sound, finished⟩ := h.level mem
  obtain ⟨flushed, flush, -, same⟩ := Progress.finish_eq_ok_iff.mp finished
  rw [same] at found
  rcases Settings.find?_withDefaults_cases found with line | ⟨arg, seen, named, type, role, default⟩
  · exact ((sound.flush flush).1.settings name setting line).2
  · exact ⟨type, ⟨arg, seen, named, role⟩, FlagType.stores_of_default default⟩

theorem Setting.deeper_eq_some {outer inner : Option Setting} {setting : Setting}
    (counts : deeper outer inner = some setting) : outer = some setting ∨ inner = some setting := by
  unfold deeper at counts
  split at counts
  · exact .inl counts
  · exact .inl counts
  · exact .inr counts

theorem Setting.deeper_eq_none {outer inner : Option Setting}
    (unset : Setting.deeper outer inner = none) : outer = none ∧ inner = none := by
  unfold Setting.deeper at unset
  split at unset
  · cases unset
  · exact ⟨unset, rfl⟩
  · next some_ _ => exact absurd unset some_

/-- What counts along the chain is set on a command of it. -/
theorem Chain.level_of_merged {chain : Chain} {name : String} {setting : Setting}
    (counts : chain.merged name = some setting) :
    ∃ level ∈ chain.levels, Keyed.find? name level.settings = some setting := by
  induction chain with
  | last level => exact ⟨level, List.mem_singleton_self level, counts⟩
  | above level below ih =>
    rcases Setting.deeper_eq_some counts with outer | inner
    · exact ⟨level, List.mem_cons_self, outer⟩
    · obtain ⟨other, mem, found⟩ := ih inner
      exact ⟨other, List.mem_cons_of_mem _ mem, found⟩

theorem Chain.leaf_mem_levels (chain : Chain) : chain.leaf ∈ chain.levels := by
  induction chain with
  | last level => exact List.mem_singleton_self level
  | above level below ih => exact List.mem_cons_of_mem _ ih

theorem Chain.leaf_of_merged_eq_none {chain : Chain} {name : String}
    (unset : chain.merged name = none) :
    Keyed.find? name chain.leaf.settings = none := by
  induction chain with
  | last level => exact unset
  | above level below ih => exact ih (Setting.deeper_eq_none unset).2

theorem Chain.leaf_of_setting?_eq_none {chain : Chain} {name : String}
    (unset : chain.setting? name = none) :
    Keyed.find? name chain.leaf.settings = none := by
  unfold setting? at unset
  split at unset
  · exact leaf_of_merged_eq_none unset
  · exact unset

theorem Chain.level_of_setting? {chain : Chain} {name : String} {setting : Setting}
    (set : chain.setting? name = some setting) :
    ∃ level ∈ chain.levels, Keyed.find? name level.settings = some setting := by
  unfold setting? at set
  split at set
  · exact level_of_merged set
  · exact ⟨chain.leaf, chain.leaf_mem_levels, set⟩

/-- What the selected command requires, the line sets. -/
theorem Chain.Descends.required_given {chain : Chain} (h : chain.Descends view) {arg : Argument}
    (mem : arg ∈ chain.leaf.view.arguments) (required : arg.required = true) :
    ∃ setting, Keyed.find? arg.name chain.leaf.settings = some setting ∧
      setting.origin = .line := by
  obtain ⟨p, sound, finished⟩ := h.level chain.leaf_mem_levels
  obtain ⟨flushed, flush, given, level⟩ := Progress.finish_eq_ok_iff.mp finished
  obtain ⟨setting, found⟩ := Option.isSome_iff_exists.mp (given arg mem required)
  refine ⟨setting, ?_, ((sound.flush flush).1.settings _ setting found).1⟩
  rw [level]
  exact Settings.find?_withDefaults found

end ToolTree.CommandLine
