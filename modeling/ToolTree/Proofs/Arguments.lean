import ToolTree.Proofs.Building

/-!
The arguments that a command is built with.

Each flag of a command yields one argument, with its name, its letter and its value type. Besides
these a command has arguments that stand for no flag: the ones that show help and the version, and
the one that takes the words. `extras_of_commandArguments` says that these share neither name nor
letter with each other or with a flag in sight, whatever the flags in sight are called.
-/

namespace ToolTree

open CommandLine (Argument FlagType)

/-! ### The argument of a flag -/

theorem FlagDecl.kind_of_flagType {flag : FlagDecl} {kind : FlagKind} {path : String}
    {type : FlagType} (ok : flag.flagType kind path = .ok type) : type.kind = kind := by
  cases kind with
  | string =>
    cases ok
    rfl
  | bool =>
    cases ok
    rfl
  | int =>
    simp only [flagType] at ok
    split at ok
    · cases ok
      rfl
    · split at ok
      · cases ok
        rfl
      · cases ok
  | stringSlice =>
    cases ok
    rfl

/-- The default of a flag does not depend on where the flag is declared. -/
theorem FlagDecl.flagType_congr {flag : FlagDecl} {kind : FlagKind} {path : String}
    {type : FlagType} (read : flag.flagType kind path = .ok type) (path' : String) :
    flag.flagType kind path' = .ok type := by
  cases kind with
  | string => exact read
  | bool => exact read
  | stringSlice => exact read
  | int =>
    simp only [FlagDecl.flagType] at read ⊢
    split
    · next empty =>
      rw [if_pos empty] at read
      exact read
    · next written =>
      rw [if_neg written] at read
      split
      · next n denotes =>
        rw [denotes] at read
        exact read
      · next unread =>
        rw [unread] at read
        cases read

namespace FlagDecl.Yields

variable {flag : FlagDecl} {arg : Argument}

theorem name (h : flag.Yields arg) : arg.name = flag.name := by
  obtain ⟨path, kind, type, rank, -, -, rfl⟩ := h
  rfl

theorem short (h : flag.Yields arg) : arg.short? = flag.shortChar? := by
  obtain ⟨path, kind, type, rank, -, -, rfl⟩ := h
  rfl

theorem persistent (h : flag.Yields arg) : arg.persistent = flag.persistent := by
  obtain ⟨path, kind, type, rank, -, -, rfl⟩ := h
  rfl

theorem required (h : flag.Yields arg) : arg.required = (flag.required && !flag.persistent) := by
  obtain ⟨path, kind, type, rank, -, -, rfl⟩ := h
  rfl

/-- The value type of an argument is the one that its flag declares. -/
theorem role (h : flag.Yields arg) :
    ∃ type, arg.role = .flag type ∧ flag.flagKind = .ok type.kind := by
  obtain ⟨path, kind, type, rank, typed, default, rfl⟩ := h
  refine ⟨type, rfl, ?_⟩
  rw [FlagDecl.kind_of_flagType default]
  exact typed

/-- All arguments that stand for a flag have the same type, the default included. -/
theorem role_congr {other : Argument} (yields : flag.Yields arg) (yields' : flag.Yields other) :
    arg.role = other.role := by
  obtain ⟨path, kind, type, rank, typed, read, rfl⟩ := yields
  obtain ⟨path', kind', type', rank', typed', read', rfl⟩ := yields'
  rw [typed] at typed'
  cases typed'
  have same := FlagDecl.flagType_congr read path'
  rw [read'] at same
  cases same
  rfl

end FlagDecl.Yields

section Yielded

variable {flags : List FlagDecl} {args : List Argument}

theorem names_of_yields (all : List.Forall₂ FlagDecl.Yields flags args) :
    args.map Argument.name = flags.map FlagDecl.name :=
  (map_eq_of_forall₂ all fun _ _ _ yields => yields.name.symm).symm

theorem shorts_of_yields (all : List.Forall₂ FlagDecl.Yields flags args) :
    args.filterMap Argument.short? = flags.filterMap FlagDecl.shortChar? := by
  have same : flags.map FlagDecl.shortChar? = args.map Argument.short? :=
    map_eq_of_forall₂ all fun _ _ _ yields => yields.short.symm
  calc args.filterMap Argument.short? = (args.map Argument.short?).filterMap id := by
        rw [List.filterMap_map]
        rfl
    _ = (flags.map FlagDecl.shortChar?).filterMap id := by rw [same]
    _ = flags.filterMap FlagDecl.shortChar? := by
        rw [List.filterMap_map]
        rfl

/-- The persistent flags yield the persistent arguments. -/
theorem persistent_of_yields (all : List.Forall₂ FlagDecl.Yields flags args) :
    List.Forall₂ FlagDecl.Yields (flags.filter FlagDecl.persistent)
      (args.filter Argument.persistent) :=
  List.rel_filter (fun _ _ yields => iff_of_eq (congrArg (· = true) yields.persistent.symm)) all

end Yielded

/-! ### Arguments that stand for no flag -/

/-- An argument that stands for no flag: neither a line nor a command below is asked for it, and
it gives way to the names and letters of the flags in sight. -/
structure Extra (seen : List FlagDecl) (arg : Argument) : Prop where
  plain : arg.required = false ∧ arg.persistent = false
  noFlag : arg.flagType? = none
  nameFree : ∀ flag ∈ seen, flag.name ≠ arg.name
  shortFree : ∀ short, arg.short? = some short → ∀ flag ∈ seen, flag.shortChar? ≠ some short

/-- Arguments that stand for no flag and share neither name nor letter. -/
structure Extras (seen : List FlagDecl) (others : List Argument) : Prop where
  each : ∀ arg ∈ others, Extra seen arg
  names : (others.map Argument.name).Nodup
  shorts : (others.filterMap Argument.short?).Nodup

section Builtin

variable {scope : Scope} {name : String} {short : Char} {summary : String}
  {role : CommandLine.Role} {rank : Nat} {arg : Argument}

theorem mem_builtin_iff :
    arg ∈ builtin scope name short summary role rank ↔ Keyed.find? name scope.names = none ∧
      arg = ⟨name, if (scope.owner? short).isSome then none else some short, summary, role, false,
        false, false, rank⟩ := by
  unfold builtin
  cases Keyed.find? name scope.names with
  | some kind => simp
  | none => simp

theorem names_builtin_sublist :
    ((builtin scope name short summary role rank).map Argument.name).Sublist [name] := by
  unfold builtin
  split
  · exact List.nil_sublist _
  · exact .refl _

theorem shorts_builtin_sublist :
    ((builtin scope name short summary role rank).filterMap Argument.short?).Sublist [short] := by
  unfold builtin
  split
  · exact List.nil_sublist _
  · split
    · exact List.nil_sublist _
    · exact .refl _

/-- An argument that answers by itself gives way to the flags in sight. -/
theorem extra_of_mem_builtin {seen : List FlagDecl} (holds : scope.Holds seen)
    (wf : ∀ flag ∈ seen, flag.WellFormed)
    (mem : arg ∈ builtin scope name short summary role rank) (noFlag : arg.flagType? = none) :
    Extra seen arg := by
  obtain ⟨free, rfl⟩ := mem_builtin_iff.mp mem
  refine ⟨⟨rfl, rfl⟩, noFlag, fun flag seen same => ?_, fun letter owned flag seen spelt => ?_⟩
  · have taken := (holds.isSome_find? wf name).mpr ⟨flag, seen, same⟩
    rw [free] at taken
    cases taken
  · have taken := (holds.shorts letter).mpr ⟨flag, seen, spelt⟩
    simp only at owned
    split at owned
    · cases owned
    · next unowned =>
      cases owned
      exact unowned taken

end Builtin

/-- The arguments of a command are those of its flags and some that stand for no flag. -/
theorem extras_of_commandArguments {seen : List FlagDecl} {flags : Flags}
    (holds : flags.visible.Holds seen) (wf : ∀ flag ∈ seen, flag.WellFormed)
    (unreserved : ∀ flag ∈ seen, flag.name ≠ wordsName) (command : CommandFields) (arity : Arity)
    (versioned : Bool) :
    ∃ others, commandArguments command arity flags versioned = flags.arguments ++ others ∧
      Extras seen others := by
  refine ⟨_, by simp only [commandArguments, List.append_assoc]; rfl, ?_, ?_, ?_⟩
  · intro arg mem
    rcases List.mem_append.mp mem with help | mem
    · refine extra_of_mem_builtin holds wf help ?_
      rw [(mem_builtin_iff.mp help).2]
      rfl
    rcases List.mem_append.mp mem with version | words
    · split at version
      · refine extra_of_mem_builtin holds wf version ?_
        rw [(mem_builtin_iff.mp version).2]
        rfl
      · cases version
    · cases List.mem_singleton.mp words
      exact ⟨⟨rfl, rfl⟩, rfl, unreserved, fun _ owned => by cases owned⟩
  · have distinct : ["help", "version", wordsName].Nodup := by decide
    refine distinct.sublist ?_
    rw [List.map_append, List.map_append]
    change List.Sublist _ (["help"] ++ (["version"] ++ [wordsName]))
    refine names_builtin_sublist.append (List.Sublist.append ?_ (.refl _))
    split
    · exact names_builtin_sublist
    · exact List.nil_sublist _
  · have distinct : ['h', 'V'].Nodup := by decide
    refine distinct.sublist ?_
    rw [List.filterMap_append, List.filterMap_append]
    change List.Sublist _ (['h'] ++ (['V'] ++ []))
    refine shorts_builtin_sublist.append (List.Sublist.append ?_ (.refl _))
    split
    · exact shorts_builtin_sublist
    · exact List.nil_sublist _

end ToolTree
