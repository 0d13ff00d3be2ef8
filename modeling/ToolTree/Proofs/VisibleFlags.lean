import Mathlib.Data.List.Forall2
import ToolTree.Proofs.Sequencing
import ToolTree.Proofs.WellFormed

/-!
The flags that a command sees, read off the declaration.

A command sees the persistent flags of the commands above it and its own. `Scope.Holds` says that
a scope knows exactly some flags; taking a flag that clashes with none of them keeps that
(`Scope.Holds.claim`), and a flag is refused exactly when it clashes with one of them or has the
reserved name (`conflict?_eq_none_iff`). `isOk_ofDecls_iff` and `After.ofDecls` carry both through
the flags of a command: when all of them are taken, and what is known then.
-/

namespace ToolTree

/-! ### Flags in sight -/

/-- The persistent flags of commands, in order. -/
def persistentFlags (commands : List CommandFields) : List FlagDecl :=
  commands.flatMap fun command => command.flags.filter FlagDecl.persistent

/-- The flags that a command below some others sees. -/
def visibleFlags (above : List CommandFields) (command : CommandFields) : List FlagDecl :=
  persistentFlags above ++ command.flags

/-- The names of the flags of commands that are both persistent and required, in order. -/
def requiredNames (commands : List CommandFields) : List String :=
  ((persistentFlags commands).filter FlagDecl.required).map FlagDecl.name

/-- Two flags that cannot be in sight together: they share the name or a shorthand. -/
def FlagDecl.Clashes (earlier later : FlagDecl) : Prop :=
  earlier.name = later.name ∨ later.shorthand ≠ "" ∧ earlier.shorthand = later.shorthand

/-- Flags that can be in sight together. -/
def FlagsApart (flags : List FlagDecl) : Prop :=
  flags.Pairwise fun earlier later => ¬ earlier.Clashes later

theorem persistentFlags_append (above below : List CommandFields) :
    persistentFlags (above ++ below) = persistentFlags above ++ persistentFlags below :=
  List.flatMap_append

theorem requiredNames_append (above below : List CommandFields) :
    requiredNames (above ++ below) = requiredNames above ++ requiredNames below := by
  simp [requiredNames, persistentFlags_append]

theorem mem_persistentFlags_iff {commands : List CommandFields} {flag : FlagDecl} :
    flag ∈ persistentFlags commands ↔
      ∃ command ∈ commands, flag ∈ command.flags ∧ flag.persistent = true := by
  simp [persistentFlags]

theorem mem_visibleFlags_of_persistent {above : List CommandFields} {command : CommandFields}
    {flag : FlagDecl} (mem : flag ∈ persistentFlags (above ++ [command])) :
    flag ∈ visibleFlags above command := by
  rw [persistentFlags_append] at mem
  refine List.mem_append.mpr ((List.mem_append.mp mem).imp_right fun own => ?_)
  obtain ⟨other, single, declared, -⟩ := mem_persistentFlags_iff.mp own
  rw [← List.mem_singleton.mp single]
  exact declared

theorem exists_declaring_of_visible {above : List CommandFields} {command : CommandFields}
    {flag : FlagDecl} (seen : flag ∈ visibleFlags above command) :
    ∃ declaring ∈ above ++ [command], flag ∈ declaring.flags := by
  rcases List.mem_append.mp seen with upper | own
  · obtain ⟨declaring, mem, declared, -⟩ := mem_persistentFlags_iff.mp upper
    exact ⟨declaring, List.mem_append_left _ mem, declared⟩
  · exact ⟨command, List.mem_append_right _ (List.mem_singleton_self command), own⟩

/-- A flag in sight that is not persistent is one of the command itself. -/
theorem mem_flags_of_visible {above : List CommandFields} {command : CommandFields}
    {flag : FlagDecl} (mem : flag ∈ visibleFlags above command)
    (localOnly : flag.persistent = false) : flag ∈ command.flags := by
  rcases List.mem_append.mp mem with upper | own
  · obtain ⟨-, -, -, persistent⟩ := mem_persistentFlags_iff.mp upper
    rw [localOnly] at persistent
    cases persistent
  · exact own

/-- A flag in sight that is persistent is one of the persistent flags of the command and those
above it. -/
theorem mem_persistentFlags_of_visible {above : List CommandFields} {command : CommandFields}
    {flag : FlagDecl} (mem : flag ∈ visibleFlags above command)
    (persistent : flag.persistent = true) : flag ∈ persistentFlags (above ++ [command]) := by
  rw [persistentFlags_append]
  refine List.mem_append.mpr ((List.mem_append.mp mem).imp_right fun own => ?_)
  exact mem_persistentFlags_iff.mpr ⟨command, List.mem_singleton_self _, own, persistent⟩

/-- Flags that can be in sight together have distinct names. -/
theorem FlagsApart.names {flags : List FlagDecl} (h : FlagsApart flags) :
    (flags.map FlagDecl.name).Nodup :=
  List.pairwise_map.mpr (h.imp fun apart same => apart (.inl same))

/-! ### Well-formed flags -/

theorem FlagDecl.WellFormed.flagKind {flag : FlagDecl} (h : flag.WellFormed) :
    ∃ kind, flag.flagKind = .ok kind := by
  obtain ⟨kind, spelt⟩ := h.typed
  exact ⟨kind, FlagKind.ofSpelling_eq_ok_iff.mpr spelt⟩

theorem FlagDecl.flagKind_eq_ok_iff {flag : FlagDecl} {kind : FlagKind} :
    flag.flagKind = .ok kind ↔ flag.kind = kind.spelling :=
  FlagKind.ofSpelling_eq_ok_iff

theorem FlagDecl.shortChar?_eq_some_iff {flag : FlagDecl} {short : Char} :
    flag.shortChar? = some short ↔ flag.shorthand = String.ofList [short] := by
  unfold shortChar?
  rw [String.ext_iff, String.toList_ofList]
  split
  · next c letters => simp [letters]
  · next other =>
    simp only [reduceCtorEq, false_iff]
    exact other short

theorem FlagDecl.WellFormed.short? {flag : FlagDecl} (h : flag.WellFormed) (path : String) :
    flag.short? path = .ok flag.shortChar? := by
  unfold FlagDecl.short?
  split
  · next empty =>
    have : flag.shortChar? = none := by
      rw [FlagDecl.shortChar?_eq_none_iff, empty]
      decide
    rw [this]
  · next nonempty =>
    cases found : flag.shortChar? with
    | some short => rfl
    | none =>
      have ne := FlagDecl.shortChar?_eq_none_iff.mp found
      have le := h.short
      have zero : flag.shorthand.length = 0 := by omega
      exact absurd (String.length_eq_zero_iff.mp zero) nonempty

/-- Flags that can be in sight together have distinct single letters. -/
theorem FlagsApart.shorts {flags : List FlagDecl} (h : FlagsApart flags) :
    (flags.filterMap FlagDecl.shortChar?).Nodup := by
  refine List.pairwise_filterMap.mpr (h.imp fun {earlier later} apart short spelt short' spelt' => ?_)
  rintro rfl
  rw [FlagDecl.shortChar?_eq_some_iff] at spelt spelt'
  refine apart (.inr ⟨?_, spelt.trans spelt'.symm⟩)
  rw [spelt', ne_eq, String.ext_iff, String.toList_ofList]
  simp

/-- Between well-formed flags a clash is one of names or of single letters. -/
theorem FlagDecl.WellFormed.clashes_iff {earlier later : FlagDecl} (h : later.WellFormed) :
    earlier.Clashes later ↔ earlier.name = later.name ∨
      ∃ short, later.shortChar? = some short ∧ earlier.shortChar? = some short := by
  unfold FlagDecl.Clashes
  refine or_congr_right ?_
  simp only [FlagDecl.shortChar?_eq_some_iff]
  constructor
  · rintro ⟨nonempty, same⟩
    have one : later.shorthand.toList.length = 1 := by
      have le := h.short
      have ne : later.shorthand.length ≠ 0 := fun zero =>
        nonempty (String.length_eq_zero_iff.mp zero)
      rw [String.length_toList]
      omega
    obtain ⟨short, letters⟩ := List.length_eq_one_iff.mp one
    have spelt : later.shorthand = String.ofList [short] := by
      rw [String.ext_iff, letters, String.toList_ofList]
    exact ⟨short, spelt, same.trans spelt⟩
  · rintro ⟨short, spelt, spelt'⟩
    refine ⟨?_, spelt'.trans spelt.symm⟩
    rw [spelt, ne_eq, String.ext_iff, String.toList_ofList]
    simp

/-! ### Scopes -/

/-- A scope that knows the names, the value types and the shorthands of exactly some flags, each
name once and each shorthand as that of a flag that has it. -/
structure Scope.Holds (scope : Scope) (flags : List FlagDecl) : Prop where
  sorted : Keyed.Sorted scope.names
  names : ∀ name kind, Keyed.find? name scope.names = some kind ↔
    ∃ flag ∈ flags, flag.name = name ∧ flag.flagKind = .ok kind
  shorts : ∀ short, (scope.owner? short).isSome = true ↔
    ∃ flag ∈ flags, flag.shortChar? = some short
  owners : ∀ short owner, scope.owner? short = some owner →
    ∃ flag ∈ flags, flag.name = owner ∧ flag.shortChar? = some short

namespace Scope

theorem holds_empty : ({} : Scope).Holds [] :=
  ⟨.nil, by simp [Keyed.find?], by simp [owner?], by simp [owner?]⟩

variable {scope : Scope} {flags : List FlagDecl} {flag : FlagDecl}

theorem Holds.isSome_find? (h : scope.Holds flags) (wf : ∀ flag ∈ flags, flag.WellFormed)
    (name : String) :
    (Keyed.find? name scope.names).isSome = true ↔ ∃ flag ∈ flags, flag.name = name := by
  rw [Option.isSome_iff_exists]
  constructor
  · rintro ⟨kind, found⟩
    obtain ⟨flag, mem, named, -⟩ := (h.names name kind).mp found
    exact ⟨flag, mem, named⟩
  · rintro ⟨flag, mem, named⟩
    obtain ⟨kind, typed⟩ := (wf flag mem).flagKind
    exact ⟨kind, (h.names name kind).mpr ⟨flag, mem, named, typed⟩⟩

/-- A flag may join a scope when its name is not the reserved one and it clashes with no flag
that the scope knows. -/
theorem Holds.conflict?_eq_none_iff (h : scope.Holds flags)
    (wf : ∀ flag ∈ flags, flag.WellFormed) (own : flag.WellFormed) :
    scope.conflict? flag.name flag.shortChar? = none ↔
      flag.name ≠ wordsName ∧ ∀ other ∈ flags, ¬ other.Clashes flag := by
  have shorts : (flag.shortChar?.bind fun short =>
      (scope.owner? short).map fun owner => s!"-{String.ofList [short]} (--{owner})") = none ↔
      ∀ other ∈ flags, ¬ ∃ short, flag.shortChar? = some short ∧
        other.shortChar? = some short := by
    cases flag.shortChar? with
    | none => simp
    | some short =>
      have free : scope.owner? short = none ↔
          ∀ other ∈ flags, ¬ other.shortChar? = some short := by
        rw [← Option.not_isSome_iff_eq_none, h.shorts]
        simp
      simp [free]
  unfold conflict?
  simp only [h.isSome_find? wf, own.clashes_iff, not_or]
  split
  · next taken =>
    simp only [reduceCtorEq, false_iff]
    rintro ⟨free, apart⟩
    rcases taken with reserved | ⟨other, mem, same⟩
    · exact free reserved
    · exact (apart other mem).1 same
  · next free =>
    rw [not_or] at free
    rw [shorts]
    constructor
    · intro apart
      exact ⟨free.1, fun other mem => ⟨fun same => free.2 ⟨other, mem, same⟩, apart other mem⟩⟩
    · rintro ⟨-, apart⟩ other mem
      exact (apart other mem).2

/-- A scope that takes a flag with a new name knows that flag besides those that it knew. -/
theorem Holds.claim (h : scope.Holds flags) (fresh : ∀ other ∈ flags, other.name ≠ flag.name)
    {kind : FlagKind} (typed : flag.flagKind = .ok kind) :
    (scope.claim flag.name kind flag.shortChar?).Holds (flags ++ [flag]) := by
  constructor
  · exact h.sorted.insert flag.name kind
  · intro name kind'
    simp only [Scope.claim]
    by_cases same : flag.name = name
    · subst same
      rw [Keyed.find?_insert_self]
      constructor
      · intro found
        cases found
        exact ⟨flag, by simp, rfl, typed⟩
      · rintro ⟨other, mem, named, typed'⟩
        rcases List.mem_append.mp mem with old | new
        · exact absurd named (fresh other old)
        · rw [List.mem_singleton.mp new, typed] at typed'
          cases typed'
          rfl
    · rw [Keyed.find?_insert_of_ne same, h.names]
      simp [or_and_right, exists_or, same]
  · intro short
    have owner : ((scope.claim flag.name kind flag.shortChar?).owner? short).isSome = true ↔
        flag.shortChar? = some short ∨ (scope.owner? short).isSome = true := by
      cases flag.shortChar? with
      | none => simp [Scope.claim, owner?]
      | some own =>
        by_cases same : own = short
        · simp [Scope.claim, owner?, same]
        · simp [Scope.claim, owner?, same]
    rw [owner, h.shorts]
    simp only [List.mem_append, List.mem_singleton, or_and_right, exists_or, exists_eq_left]
    exact or_comm
  · intro short owner owned
    have old : scope.owner? short = some owner → ∃ other ∈ flags ++ [flag], other.name = owner ∧
        other.shortChar? = some short := by
      intro known
      obtain ⟨other, mem, declared⟩ := h.owners short owner known
      exact ⟨other, List.mem_append_left _ mem, declared⟩
    cases spelt : flag.shortChar? with
    | none =>
      rw [spelt] at owned
      exact old owned
    | some own =>
      rw [spelt] at owned
      by_cases same : own = short
      · simp only [Scope.claim, owner?, same, Option.toList_some, List.map_cons, List.map_nil,
          List.cons_append, List.find?_cons, beq_self_eq_true, Option.map_some,
          Option.some.injEq] at owned
        exact ⟨flag, by simp, owned, same ▸ spelt⟩
      · refine old ?_
        simpa [Scope.claim, owner?, same] using owned

theorem Holds.handDown (h : scope.Holds flags) (fresh : ∀ other ∈ flags, other.name ≠ flag.name)
    {kind : FlagKind} (typed : flag.flagKind = .ok kind) :
    (scope.handDown flag kind flag.shortChar?).Holds
      (flags ++ [flag].filter FlagDecl.persistent) := by
  unfold Scope.handDown
  split
  · next persistent =>
    rw [List.filter_cons_of_pos persistent]
    have claimed := h.claim fresh typed
    exact ⟨claimed.sorted, claimed.names, claimed.shorts, claimed.owners⟩
  · next localOnly =>
    rw [List.filter_cons_of_neg localOnly]
    simpa using h

theorem required_handDown (kind : FlagKind) (short? : Option Char) :
    (scope.handDown flag kind short?).required =
      scope.required ++
        (([flag].filter FlagDecl.persistent).filter FlagDecl.required).map FlagDecl.name := by
  unfold handDown
  by_cases persistent : flag.persistent = true
  · by_cases required : flag.required = true
    · simp [persistent, required, claim]
    · simp [persistent, required, claim]
  · simp [persistent]

end Scope

/-! ### The flags of one command -/

/-- An int flag that has a default has one that denotes an integer of 64 bits. -/
def FlagDecl.DefaultReads (flag : FlagDecl) : Prop :=
  flag.kind = FlagKind.int.spelling → flag.defaultText ≠ "" →
    ∃ n, Text.integer? flag.defaultText = some n

/-- A flag that may join the flags in sight. -/
structure FlagDecl.Fits (seen : List FlagDecl) (flag : FlagDecl) : Prop where
  unreserved : flag.name ≠ wordsName
  apart : ∀ other ∈ seen, ¬ other.Clashes flag
  default : flag.DefaultReads

/-- Flags that may join the flags in sight one after another. -/
def FlagsFit (seen flags : List FlagDecl) : Prop :=
  (∀ flag ∈ flags, flag.Fits seen) ∧
    flags.Pairwise fun earlier later => ¬ earlier.Clashes later

theorem FlagsFit.apart {seen flags : List FlagDecl} (h : FlagsFit seen flags)
    (seenApart : FlagsApart seen) : FlagsApart (seen ++ flags) :=
  List.pairwise_append.mpr
    ⟨seenApart, h.2, fun other seen flag mem => (h.1 flag mem).apart other seen⟩

theorem flagsFit_cons_iff {seen rest : List FlagDecl} {flag : FlagDecl} :
    FlagsFit seen (flag :: rest) ↔ flag.Fits seen ∧ FlagsFit (seen ++ [flag]) rest := by
  unfold FlagsFit
  rw [List.forall_mem_cons, List.pairwise_cons]
  constructor
  · rintro ⟨⟨first, fits⟩, ⟨apart, distinct⟩⟩
    refine ⟨first, fun later mem => ?_, distinct⟩
    refine ⟨(fits later mem).unreserved, fun other seen => ?_, (fits later mem).default⟩
    rcases List.mem_append.mp seen with old | new
    · exact (fits later mem).apart other old
    · exact List.mem_singleton.mp new ▸ apart later mem
  · rintro ⟨first, fits, distinct⟩
    refine ⟨⟨first, fun later mem => ?_⟩, fun later mem => ?_, distinct⟩
    · exact ⟨(fits later mem).unreserved,
        fun other seen => (fits later mem).apart other (List.mem_append_left _ seen),
        (fits later mem).default⟩
    · exact (fits later mem).apart flag (by simp)

theorem FlagDecl.isOk_flagType_iff {flag : FlagDecl} {kind : FlagKind}
    (typed : flag.flagKind = .ok kind) {path : String} :
    (∃ type, flag.flagType kind path = .ok type) ↔ flag.DefaultReads := by
  have spelt := FlagDecl.flagKind_eq_ok_iff.mp typed
  unfold FlagDecl.DefaultReads flagType
  rw [spelt]
  cases kind with
  | int =>
    simp only [forall_const]
    by_cases empty : flag.defaultText = ""
    · simp [empty]
    · cases read : Text.integer? flag.defaultText with
      | none => simp [empty]
      | some n => simp [empty]
  | string => simp [show FlagKind.string.spelling ≠ FlagKind.int.spelling by decide]
  | bool => simp [show FlagKind.bool.spelling ≠ FlagKind.int.spelling by decide]
  | stringSlice => simp [show FlagKind.stringSlice.spelling ≠ FlagKind.int.spelling by decide]

/-- An argument of a grammar that stands for a flag. -/
def FlagDecl.Yields (flag : FlagDecl) (arg : CommandLine.Argument) : Prop :=
  ∃ path kind type rank, flag.flagKind = .ok kind ∧ flag.flagType kind path = .ok type ∧
    arg = Flags.argument flag type flag.shortChar? rank

namespace Flags

/-- What is known of the flags of a command below a scope that holds `outer`, once the flags
`taken` are taken. -/
structure After (inherited : Scope) (outer taken : List FlagDecl) (flags : Flags) : Prop where
  visible : flags.visible.Holds (outer ++ taken)
  inheritable : flags.inheritable.Holds (outer ++ taken.filter FlagDecl.persistent)
  required : flags.inheritable.required = inherited.required ++
    ((taken.filter FlagDecl.persistent).filter FlagDecl.required).map FlagDecl.name
  arguments : List.Forall₂ FlagDecl.Yields taken flags.arguments

theorem After.start {inherited : Scope} {outer : List FlagDecl} (h : inherited.Holds outer) :
    After inherited outer [] ⟨inherited, inherited, []⟩ :=
  ⟨by simpa using h, by simpa using h, by simp, .nil⟩

theorem add_eq_ok_iff {flags flags' : Flags} {path : String} {flag : FlagDecl} :
    flags.add path flag = .ok flags' ↔
      ∃ kind, flag.flagKind = .ok kind ∧ ∃ short?, flag.short? path = .ok short? ∧
        flags.visible.conflict? flag.name short? = none ∧
        ∃ type, flag.flagType kind path = .ok type ∧
          flags' = ⟨flags.visible.claim flag.name kind short?,
            flags.inheritable.handDown flag kind short?,
            flags.arguments ++ [argument flag type short? flags.arguments.length]⟩ := by
  rw [add_eq]
  simp only [bind_eq_ok_iff, mapError_eq_ok_iff]
  refine exists_congr fun kind => and_congr_right fun _ =>
    exists_congr fun short? => and_congr_right fun _ => ?_
  cases flags.visible.conflict? flag.name short? with
  | some existing => simp
  | none =>
    simp only [bind_eq_ok_iff, pure_eq_ok_iff, true_and]
    refine exists_congr fun type => and_congr_right fun _ => ?_
    exact eq_comm

variable {inherited : Scope} {outer taken : List FlagDecl} {flags : Flags} {path : String}

/-- A flag is taken exactly when it fits the flags in sight. -/
theorem After.isOk_add_iff (h : After inherited outer taken flags)
    (wf : ∀ flag ∈ outer ++ taken, flag.WellFormed) {flag : FlagDecl} (own : flag.WellFormed) :
    (∃ flags', flags.add path flag = .ok flags') ↔ flag.Fits (outer ++ taken) := by
  obtain ⟨kind, typed⟩ := own.flagKind
  simp only [add_eq_ok_iff]
  constructor
  · rintro ⟨_, kind', typed', short?, short, free, type, default, -⟩
    rw [own.short? path] at short
    cases short
    obtain ⟨unreserved, apart⟩ := (h.visible.conflict?_eq_none_iff wf own).mp free
    exact ⟨unreserved, apart, (FlagDecl.isOk_flagType_iff typed').mp ⟨type, default⟩⟩
  · rintro ⟨unreserved, apart, default⟩
    obtain ⟨type, read⟩ := (FlagDecl.isOk_flagType_iff typed).mpr default
    exact ⟨_, kind, typed, flag.shortChar?, own.short? path,
      (h.visible.conflict?_eq_none_iff wf own).mpr ⟨unreserved, apart⟩, type, read, rfl⟩

/-- One more flag keeps what is known. -/
theorem After.add (h : After inherited outer taken flags)
    (wf : ∀ flag ∈ outer ++ taken, flag.WellFormed) {flag : FlagDecl} (own : flag.WellFormed)
    {flags' : Flags} (added : flags.add path flag = .ok flags') :
    After inherited outer (taken ++ [flag]) flags' := by
  obtain ⟨kind, typed, short?, short, free, type, default, rfl⟩ := add_eq_ok_iff.mp added
  rw [own.short? path] at short
  cases short
  obtain ⟨-, apart⟩ := (h.visible.conflict?_eq_none_iff wf own).mp free
  have fresh : ∀ other ∈ outer ++ taken, other.name ≠ flag.name :=
    fun other mem same => apart other mem (.inl same)
  have freshAbove : ∀ other ∈ outer ++ taken.filter FlagDecl.persistent,
      other.name ≠ flag.name := by
    intro other mem
    rcases List.mem_append.mp mem with above | own
    · exact fresh other (List.mem_append_left _ above)
    · exact fresh other (List.mem_append_right _ (List.mem_of_mem_filter own))
  refine ⟨?_, ?_, ?_, ?_⟩
  · rw [← List.append_assoc]
    exact h.visible.claim fresh typed
  · rw [List.filter_append, ← List.append_assoc]
    exact h.inheritable.handDown freshAbove typed
  · rw [Scope.required_handDown, h.required]
    simp [List.filter_append]
  · refine List.rel_append h.arguments (.cons ?_ .nil)
    exact ⟨path, kind, type, _, typed, default, rfl⟩

/-- All flags of a command are taken exactly when they fit one after another. -/
theorem After.isOk_foldlM_iff (h : After inherited outer taken flags) {decls : List FlagDecl}
    (wf : ∀ flag ∈ outer ++ taken ++ decls, flag.WellFormed) :
    (∃ flags', decls.foldlM (fun flags flag => flags.add path flag) flags = .ok flags') ↔
      FlagsFit (outer ++ taken) decls := by
  induction decls generalizing taken flags with
  | nil => simp [FlagsFit, pure_eq_ok_iff]
  | cons flag rest ih =>
    have seenWf : ∀ flag ∈ outer ++ taken, flag.WellFormed :=
      fun flag mem => wf flag (List.mem_append_left _ mem)
    have own : flag.WellFormed := wf flag (by simp)
    have rearranged : outer ++ (taken ++ [flag]) = outer ++ taken ++ [flag] := by simp
    rw [flagsFit_cons_iff, ← h.isOk_add_iff seenWf own]
    simp only [List.foldlM_cons, bind_eq_ok_iff]
    have step : ∀ next, flags.add path flag = .ok next →
        ((∃ flags', rest.foldlM (fun flags flag => flags.add path flag) next = .ok flags') ↔
          FlagsFit (outer ++ taken ++ [flag]) rest) := by
      intro next added
      rw [← rearranged]
      exact ih (h.add seenWf own added) (by simpa using wf)
    constructor
    · rintro ⟨flags', next, added, rest⟩
      exact ⟨⟨next, added⟩, (step next added).mp ⟨flags', rest⟩⟩
    · rintro ⟨⟨next, added⟩, fits⟩
      obtain ⟨flags', rest⟩ := (step next added).mpr fits
      exact ⟨flags', next, added, rest⟩

theorem After.foldlM (h : After inherited outer taken flags) {decls : List FlagDecl}
    (wf : ∀ flag ∈ outer ++ taken ++ decls, flag.WellFormed) {flags' : Flags}
    (all : decls.foldlM (fun flags flag => flags.add path flag) flags = .ok flags') :
    After inherited outer (taken ++ decls) flags' := by
  induction decls generalizing taken flags with
  | nil =>
    rw [List.foldlM_nil, pure_eq_ok_iff] at all
    subst all
    simpa using h
  | cons flag rest ih =>
    rw [List.foldlM_cons, bind_eq_ok_iff] at all
    obtain ⟨next, added, all⟩ := all
    have seenWf : ∀ flag ∈ outer ++ taken, flag.WellFormed :=
      fun flag mem => wf flag (List.mem_append_left _ mem)
    have taken' := ih (h.add seenWf (wf flag (by simp)) added) (by simpa using wf) all
    simpa using taken'

variable {above : List CommandFields} {command : CommandFields}

theorem isOk_ofDecls_iff (h : inherited.Holds outer)
    (wf : ∀ flag ∈ outer ++ command.flags, flag.WellFormed) :
    (∃ flags, ofDecls inherited path command.flags = .ok flags) ↔
      FlagsFit outer command.flags := by
  unfold ofDecls
  rw [(After.start h).isOk_foldlM_iff (by simpa using wf), List.append_nil]

theorem After.ofDecls (h : inherited.Holds outer)
    (wf : ∀ flag ∈ outer ++ command.flags, flag.WellFormed)
    (taken : ofDecls inherited path command.flags = .ok flags) :
    After inherited outer command.flags flags := by
  have all := (After.start h).foldlM (by simpa using wf) taken
  simpa using all

end Flags

end ToolTree
