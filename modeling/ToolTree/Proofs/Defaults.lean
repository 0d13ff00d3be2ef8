import Mathlib.Data.Nat.Digits.Defs
import ToolTree.Proofs.Access

/-!
What a flag reads as when the line does not set it.

A default is a text. Building a tree turns it into the default of an argument (`FlagDecl.flagType`),
reading a line adds it to the settings of every command of the chain that sees the flag, and an
accessor turns it into a value. Where only one command of the chain declares the name, whatever is
found under it that the line did not set is that default (`Descent.setting_of_unset`), so the
accessors answer as the declaration says (`defaults_of_called`).
-/

namespace ToolTree

/-! ### Written integers -/

namespace Text

/-- The number that decimal digits stand for, the most significant digit first. -/
def value (digits : List Char) : Nat :=
  Nat.ofDigits 10 (digits.reverse.map fun c => c.toNat - '0'.toNat)

/-- At least one character, and decimal digits only. -/
def IsNumeral (cs : List Char) : Prop :=
  cs ≠ [] ∧ ∀ c ∈ cs, c.isDigit = true

/-- A text denotes an integer of 64 bits: digits, perhaps behind a sign. -/
inductive Denotes (s : String) : Int → Prop where
  | unsigned {digits : List Char} : s.toList = digits → IsNumeral digits →
      inInt64 (value digits) = true → Denotes s (value digits)
  | positive {digits : List Char} : s.toList = '+' :: digits → IsNumeral digits →
      inInt64 (value digits) = true → Denotes s (value digits)
  | negative {digits : List Char} : s.toList = '-' :: digits → IsNumeral digits →
      inInt64 (-value digits) = true → Denotes s (-value digits)

theorem value_cons (c : Char) (digits : List Char) :
    value (c :: digits) = (c.toNat - '0'.toNat) * 10 ^ digits.length + value digits := by
  simp only [value, List.reverse_cons, List.map_append, List.map_cons, List.map_nil,
    Nat.ofDigits_append, List.length_map, List.length_reverse, Nat.ofDigits_singleton]
  rw [Nat.mul_comm, Nat.add_comm]

theorem decimalValue_eq_some_iff {c : Char} {d : Nat} :
    decimalValue c = some d ↔ c.isDigit = true ∧ d = c.toNat - '0'.toNat := by
  have digit : ('0' ≤ c ∧ c ≤ '9') ↔ c.isDigit = true := by
    simp [Char.isDigit, Char.le_def]
  unfold decimalValue
  split
  · next inside => simp [digit.mp inside, eq_comm]
  · next outside =>
    rw [digit] at outside
    simp [outside]

theorem digit_lt {c : Char} (digit : c.isDigit = true) : c.toNat - '0'.toNat < 10 := by
  simp only [Char.isDigit, Bool.and_eq_true, decide_eq_true_eq, ge_iff_le,
    UInt32.le_iff_toNat_le] at digit
  have top : c.toNat ≤ 57 := digit.2
  have zero : '0'.toNat = 48 := rfl
  omega

/-- Reading digits goes on from the number that was read before them. -/
theorem foldlM_digits_eq_some_iff {cs : List Char} {start n : Nat} :
    cs.foldlM (fun acc c => (decimalValue c).bind fun d =>
        if d < 10 then some (acc * 10 + d) else none) start = some n ↔
      (∀ c ∈ cs, c.isDigit = true) ∧ n = start * 10 ^ cs.length + value cs := by
  induction cs generalizing start with
  | nil =>
    rw [List.foldlM_nil]
    simp [value, @eq_comm _ n]
  | cons c rest ih =>
    rw [List.foldlM_cons, List.forall_mem_cons, value_cons, List.length_cons]
    cases read : decimalValue c with
    | none =>
      constructor
      · intro failed
        cases failed
      · rintro ⟨⟨digit, -⟩, -⟩
        rw [decimalValue_eq_some_iff.mpr ⟨digit, rfl⟩] at read
        cases read
    | some d =>
      obtain ⟨digit, rfl⟩ := decimalValue_eq_some_iff.mp read
      simp only [Option.bind_some, digit_lt digit, if_true, Option.bind_eq_bind, ih, digit,
        true_and]
      refine and_congr_right fun _ => ?_
      rw [Nat.add_mul, Nat.pow_succ, Nat.mul_assoc, Nat.mul_comm 10, Nat.add_assoc]

theorem natural?_eq_some_iff {cs : List Char} {n : Nat} :
    natural? cs = some n ↔ IsNumeral cs ∧ n = value cs := by
  unfold natural? digits?
  cases cs with
  | nil => simp [IsNumeral]
  | cons c rest =>
    rw [foldlM_digits_eq_some_iff]
    simp [IsNumeral]

/-- What is read from a text is the integer that it denotes. -/
theorem integer?_eq_some_iff {s : String} {n : Int} : integer? s = some n ↔ Denotes s n := by
  unfold integer?
  rw [Option.filter_eq_some_iff]
  constructor
  · rintro ⟨read, fits⟩
    split at read
    · next rest letters =>
      obtain ⟨m, natural, rfl⟩ := Option.map_eq_some_iff.mp read
      obtain ⟨numeral, rfl⟩ := natural?_eq_some_iff.mp natural
      exact .positive letters numeral fits
    · next rest letters =>
      obtain ⟨m, natural, rfl⟩ := Option.map_eq_some_iff.mp read
      obtain ⟨numeral, rfl⟩ := natural?_eq_some_iff.mp natural
      exact .negative letters numeral fits
    · obtain ⟨m, natural, rfl⟩ := Option.map_eq_some_iff.mp read
      obtain ⟨numeral, rfl⟩ := natural?_eq_some_iff.mp natural
      exact .unsigned rfl numeral fits
  · intro denotes
    cases denotes with
    | @unsigned digits letters numeral fits =>
      refine ⟨?_, fits⟩
      split
      · next rest signed =>
        have plus := numeral.2 '+' (by simp [← letters, signed])
        cases plus
      · next rest signed =>
        have minus := numeral.2 '-' (by simp [← letters, signed])
        cases minus
      · rw [letters, natural?_eq_some_iff.mpr ⟨numeral, rfl⟩]
        rfl
    | positive letters numeral fits =>
      refine ⟨?_, fits⟩
      simp only [letters, natural?_eq_some_iff.mpr ⟨numeral, rfl⟩]
      rfl
    | negative letters numeral fits =>
      refine ⟨?_, fits⟩
      simp only [letters, natural?_eq_some_iff.mpr ⟨numeral, rfl⟩]
      rfl

example : integer? "+5" = some 5 ∧ integer? "-9223372036854775808" = some (-9223372036854775808) ∧
    integer? "9223372036854775808" = none := by decide

end Text

open CommandLine (Argument Chain FlagType Payload Setting Settings View)

/-! ### The default of a flag -/

/-- How many of some commands declare a flag of a name. -/
def declarations (name : String) (commands : List CommandFields) : Nat :=
  commands.countP fun command => command.flags.any fun flag => flag.name == name

/-- When only one of some well-formed commands declares a name, they have one flag of that name. -/
theorem eq_of_declarations_eq_one {commands : List CommandFields}
    (wf : ∀ command ∈ commands, command.WellFormed) {flag other : FlagDecl}
    (once : declarations flag.name commands = 1) {command command' : CommandFields}
    (mem : command ∈ commands) (declared : flag ∈ command.flags) (mem' : command' ∈ commands)
    (declared' : other ∈ command'.flags) (same : other.name = flag.name) : other = flag := by
  rw [declarations, List.countP_eq_length_filter, List.length_eq_one_iff] at once
  obtain ⟨only, once⟩ := once
  have isOnly : ∀ command ∈ commands, ∀ each ∈ command.flags, each.name = flag.name →
      command = only := by
    intro command mem each declared named
    have kept : command ∈ commands.filter fun command =>
        command.flags.any fun other => other.name == flag.name := by
      refine List.mem_filter.mpr ⟨mem, List.any_eq_true.mpr ⟨each, declared, ?_⟩⟩
      simpa using named
    rw [once] at kept
    exact List.mem_singleton.mp kept
  have first := isOnly command mem flag declared rfl
  have second := isOnly command' mem' other declared' same
  subst first
  subst second
  exact (wf _ mem).eq_of_name_eq declared' declared same

section Descent

variable {registry : Registry} {above between : List CommandFields} {path : String}
  {c d : CommandDecl} {view : View} {node last : Node} {chain : Chain}

/-- A setting of a command of the chain that the line does not give is the default of a flag that
the command sees. -/
theorem Descent.default_of_level
    (h : Descent registry above path c view node chain between d last)
    (descends : chain.Descends view) {level : CommandLine.Level} (mem : level ∈ chain.levels)
    {name : String} {setting : Setting} (set : Keyed.find? name level.settings = some setting)
    (rests : setting.origin = .default) :
    ∃ declaring ∈ above ++ between ++ [d.toCommandFields], ∃ flag ∈ declaring.flags,
      flag.name = name ∧ ∃ arg type, flag.Yields arg ∧ arg.role = .flag type ∧
        type.default? = some setting := by
  obtain ⟨p, sound, finished⟩ := descends.level mem
  obtain ⟨flushed, flush, -, read⟩ := CommandLine.Progress.finish_eq_ok_iff.mp finished
  rw [read] at set
  rcases Settings.find?_withDefaults_cases set with line | ⟨arg, seen, named, type, role, default⟩
  · rw [((sound.flush flush).1.settings name setting line).1] at rests
    cases rests
  · obtain ⟨upper, e, path', node', onTheWay, stands⟩ := h.levels level mem
    rcases stands.argument_cases seen with ⟨flag, visible, yields⟩ | extra
    · obtain ⟨declaring, listed, declared⟩ := exists_declaring_of_visible visible
      exact ⟨declaring, onTheWay.subset listed, flag, declared, yields.name ▸ named, arg, type,
        yields, role, default⟩
    · have noFlag := extra.noFlag
      rw [Argument.flagType?, role] at noFlag
      cases noFlag

/-- What a flag is set to that the line does not set, when no other command of the chain declares
its name: its default. -/
theorem Descent.setting_of_unset
    (h : Descent registry above path c view node chain between d last)
    (descends : chain.Descends view) {flag : FlagDecl}
    (seen : flag ∈ visibleFlags (above ++ between) d.toCommandFields)
    (once : declarations flag.name (above ++ between ++ [d.toCommandFields]) = 1)
    (unset : chain.isGiven flag.name = false) :
    ∃ arg type, flag.Yields arg ∧ arg.role = .flag type ∧
      chain.setting? flag.name = type.default? := by
  obtain ⟨arg, mem, yields⟩ := h.stands.argument_of_visible seen
  obtain ⟨type, role, -⟩ := yields.role
  refine ⟨arg, type, yields, role, ?_⟩
  cases set : chain.setting? flag.name with
  | none =>
    -- Nothing is found at the end of the chain either, where a default would have been added.
    cases default : type.default? with
    | none => rfl
    | some setting =>
      obtain ⟨p, -, finished⟩ := descends.level chain.leaf_mem_levels
      obtain ⟨flushed, -, -, read⟩ := CommandLine.Progress.finish_eq_ok_iff.mp finished
      have typed : arg.flagType? = some type := by rw [Argument.flagType?, role]
      have added := Settings.isSome_find?_withDefaults flushed.settings mem typed default
      have missing := Chain.leaf_of_setting?_eq_none set
      rw [read, ← yields.name] at missing
      rw [missing] at added
      cases added
  | some setting =>
    obtain ⟨level, onChain, found⟩ := Chain.level_of_setting? set
    have rests : setting.origin = .default := by
      rw [Chain.isGiven, set, Option.any_some] at unset
      cases origin : setting.origin with
      | default => rfl
      | line =>
        rw [origin] at unset
        cases unset
    obtain ⟨declaring, listed, other, declared, named, arg', type', yields', role', default⟩ :=
      h.default_of_level descends onChain found rests
    obtain ⟨declaring', listed', declared'⟩ := exists_declaring_of_visible seen
    have same := eq_of_declarations_eq_one h.stands.way_wellFormed once listed' declared' listed
      declared named
    subst same
    have alike := yields.role_congr yields'
    rw [role, role'] at alike
    cases alike
    exact default.symm

end Descent

/-! ### Accessors -/

/-- What the accessor of its type answers for a flag that is at its default: the text of the
default, which is empty without one; whether that text is `true`; the integer that it denotes, or
zero without one; for a list nothing, whatever the text is. -/
structure FlagDecl.ReadsDefault (flag : FlagDecl) (call : Invocation) : Prop where
  string : flag.kind = FlagKind.string.spelling →
    call.getString flag.name = .ok flag.defaultText
  bool : flag.kind = FlagKind.bool.spelling →
    call.getBool flag.name = .ok (decide (flag.defaultText = "true"))
  zero : flag.kind = FlagKind.int.spelling → flag.defaultText = "" →
    call.getInt flag.name = .ok 0
  int : flag.kind = FlagKind.int.spelling → flag.defaultText ≠ "" →
    ∃ n, Text.Denotes flag.defaultText n ∧ call.getInt flag.name = .ok n
  stringSlice : flag.kind = FlagKind.stringSlice.spelling →
    call.getStringSlice flag.name = .ok []

/-- The accessors of a flag that is set to the default of its argument. -/
theorem FlagDecl.Yields.readsDefault {flag : FlagDecl} {arg : Argument} (yields : flag.Yields arg)
    {type : FlagType} (role : arg.role = .flag type) {call : Invocation} {kind : FlagKind}
    (typed : flag.flagKind = .ok kind) (known : call.kindOf flag.name = .ok kind)
    (rests : call.setting? flag.name = type.default?) : flag.ReadsDefault call := by
  obtain ⟨path, kind', type', rank, typed', read, rfl⟩ := yields
  cases role
  rw [typed] at typed'
  cases typed'
  have payload := Invocation.payload?_of_kindOf known
  rw [rests] at payload
  have spelt := FlagDecl.flagKind_eq_ok_iff.mp typed
  have isKind : ∀ other : FlagKind, flag.kind = other.spelling → kind = other := by
    intro other same
    rw [FlagDecl.flagKind_eq_ok_iff.mpr same] at typed
    exact (Except.ok.inj typed).symm
  constructor
  · intro same
    cases isKind _ same
    cases read
    rw [Invocation.getString, payload]
    by_cases empty : flag.defaultText = ""
    · simp [FlagType.default?, empty]
      rfl
    · simp [FlagType.default?, empty]
      rfl
  · intro same
    cases isKind _ same
    cases read
    rw [Invocation.getBool, payload]
    simp [FlagType.default?]
    rfl
  · intro same empty
    cases isKind _ same
    simp only [FlagDecl.flagType, empty, if_true] at read
    cases read
    rw [Invocation.getInt, payload]
    rfl
  · intro same written
    cases isKind _ same
    simp only [FlagDecl.flagType, written, if_false] at read
    split at read
    · next n denotes =>
      cases read
      refine ⟨n, Text.integer?_eq_some_iff.mp denotes, ?_⟩
      rw [Invocation.getInt, payload]
      rfl
    · cases read
  · intro same
    cases isKind _ same
    cases read
    rw [Invocation.getStringSlice, payload]
    rfl

/-- Inside a function that is called, a flag in sight that the line does not set reads as its
default, be it a flag of the command itself or one handed down from any command above, when no
other command on the way down to the called one declares a flag of its name. -/
theorem defaults_of_called {tool : ToolDecl} {registry : Registry} {tree : Tree}
    (built : (tool.build registry).result = .ok tree) {argv : List String} {call : Call}
    (called : (tree.run argv).call? = some call) :
    ∃ chain above c, tree.grammar.parse argv = .ok chain ∧
      tool.tree.Leads above chain.names c ∧
      call.invocation.path = pathFrom tool.rootName chain.names ∧
      ∀ flag ∈ visibleFlags above c.toCommandFields,
        declarations flag.name (above ++ [c.toCommandFields]) = 1 →
        call.invocation.isSet flag.name = .ok false → flag.ReadsDefault call.invocation := by
  obtain ⟨chain, node, binding, selects, rfl⟩ := Tree.selects_of_called called
  obtain ⟨descends, above, c, descent⟩ := selects.descent built
  refine ⟨chain, above, c, selects.read, descent.leads, descent.stands.agrees.path_eq, ?_⟩
  intro flag seen once isSet
  obtain ⟨kind, typed⟩ := (descent.stands.visible_wellFormed flag seen).flagKind
  have known : (node.invocation chain).kindOf flag.name = .ok kind :=
    descent.stands.kindOf_of_visible seen typed
  have unset : chain.isGiven flag.name = false := by
    rw [Invocation.isSet, known] at isSet
    exact Except.ok.inj isSet
  obtain ⟨arg, type, yields, role, rests⟩ := descent.setting_of_unset descends seen once unset
  exact yields.readsDefault role typed known rests

/-- A command whose flags have defaults. -/
def fireCommand : CommandDecl where
  useLine := "fire <pot>"
  summary := "Fire a pot"
  handler := "fire"
  flags := [
    { FlagDecl.ofKind "dry" .bool "Only try" with defaultText := "yes" },
    { FlagDecl.ofKind "note" .string "What to note" with defaultText := "true" }]

/-- A group with a list for all commands below it. -/
def ovenCommand : CommandDecl where
  useLine := "oven"
  summary := "Ovens"
  flags := [
    { FlagDecl.ofKind "glaze" .stringSlice "Glazes" with
      defaultText := "a,b", persistent := true }]
  commands := [("fire", fireCommand)]

/-- A tool with defaults on every level. -/
def kilnTool : ToolDecl where
  name := "kiln"
  root := {
    useLine := "kiln"
    summary := "Run a kiln"
    flags := [
      { FlagDecl.ofKind "heat" .int "How hot" with defaultText := "+5", persistent := true }] }
  commands := [("oven", ovenCommand)]

/-- A function for `fire`. -/
def kilnRegistry : Registry :=
  .ofList [("fire", .handler fun _ _ => .ok ())]

theorem defaults_of_called_kiln :
    ∃ tree call, (kilnTool.build kilnRegistry).result = .ok tree ∧
      (tree.run ["kiln", "oven", "fire", "--note=a", "pot"]).call? = some call ∧
      call.invocation.getInt "heat" = .ok 5 ∧
      call.invocation.getStringSlice "glaze" = .ok [] ∧
      call.invocation.getBool "dry" = .ok false := by
  have unset : (kilnTool.build kilnRegistry).result.map (fun tree =>
      ((tree.run ["kiln", "oven", "fire", "--note=a", "pot"]).call?.map fun call =>
        ["heat", "glaze", "dry"].map call.invocation.isSet,
        (tree.grammar.parse ["kiln", "oven", "fire", "--note=a", "pot"]).map Chain.names)) =
      .ok (some [.ok false, .ok false, .ok false], .ok ["oven", "fire"]) := by rfl
  obtain ⟨tree, built, unset⟩ := map_eq_ok_iff.mp unset
  obtain ⟨unset, names⟩ := Prod.mk.inj unset
  obtain ⟨call, called, unset⟩ := Option.map_eq_some_iff.mp unset
  simp only [List.map_cons, List.map_nil, List.cons.injEq] at unset
  obtain ⟨heat, glaze, dry, -⟩ := unset
  obtain ⟨chain, above, c, read, leads, -, defaults⟩ := defaults_of_called built called
  rw [read] at names
  rw [Except.ok.inj names] at leads
  have wf : kilnTool.tree.WellFormed := (build_eq_ok_iff.mp built).1.commands
  have way : kilnTool.tree.Leads [kilnTool.root.toCommandFields, ovenCommand.toCommandFields]
      ["oven", "fire"] fireCommand := by
    have oven : ("oven", ovenCommand) ∈ kilnTool.tree.commands := .head _
    have fire : ("fire", fireCommand) ∈ ovenCommand.commands := .head _
    exact .down oven (.down fire (.here fireCommand))
  obtain ⟨rfl, rfl⟩ := leads.unique wf way
  refine ⟨tree, call, built, called, ?_, ?_, ?_⟩
  · obtain ⟨n, denotes, read⟩ := (defaults _ (.head _) rfl heat).int rfl (by decide)
    rw [← Text.integer?_eq_some_iff] at denotes
    cases denotes
    exact read
  · exact (defaults _ (.tail _ (.head _)) rfl glaze).stringSlice rfl
  · exact (defaults _ (.tail _ (.tail _ (.head _))) rfl dry).bool rfl

end ToolTree
