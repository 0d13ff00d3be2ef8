import ToolTree.Proofs.VisibleFlags

/-!
When a tree is built, and from what.

`CommandDecl.Fits` says what a command needs beyond being well formed: flags that may join those in
sight, a function that is registered for it, and aliases below it that are free. A command is built
exactly when it and all commands below it fit (`isOk_buildNode_iff`); a tool, exactly when it has
no problem and all its commands fit. `buildNode_eq_ok_iff` reads a built command back to its parts.
-/

namespace ToolTree

open CommandLine (Grammar)

/-! ### Lists side by side -/

theorem exists_forall₂_iff {α β : Type} {R : α → β → Prop} {as : List α} :
    (∃ bs, List.Forall₂ R as bs) ↔ ∀ a ∈ as, ∃ b, R a b := by
  induction as with
  | nil => simp
  | cons a rest ih =>
    simp only [List.forall₂_cons_left_iff, List.forall_mem_cons, ← ih]
    constructor
    · rintro ⟨_, b, bs, related, all, -⟩
      exact ⟨⟨b, related⟩, bs, all⟩
    · rintro ⟨⟨b, related⟩, bs, all⟩
      exact ⟨_, b, bs, related, all, rfl⟩

theorem exists_mem_of_forall₂ {α β : Type} {R : α → β → Prop} {as : List α} {bs : List β}
    (all : List.Forall₂ R as bs) : (∀ a ∈ as, ∃ b ∈ bs, R a b) ∧ ∀ b ∈ bs, ∃ a ∈ as, R a b := by
  induction all with
  | nil => simp
  | cons related _ ih =>
    constructor
    · intro a mem
      rcases List.mem_cons.mp mem with rfl | mem
      · exact ⟨_, List.mem_cons_self, related⟩
      · obtain ⟨b, mem, related⟩ := ih.1 a mem
        exact ⟨b, List.mem_cons_of_mem _ mem, related⟩
    · intro b mem
      rcases List.mem_cons.mp mem with rfl | mem
      · exact ⟨_, List.mem_cons_self, related⟩
      · obtain ⟨a, mem, related⟩ := ih.2 b mem
        exact ⟨a, List.mem_cons_of_mem _ mem, related⟩

theorem find?_forall₂ {α β : Type} {R : α → β → Prop} {as : List α} {bs : List β} {p : α → Bool}
    {q : β → Bool} (all : List.Forall₂ R as bs) (same : ∀ a b, R a b → p a = q b) :
    Option.Rel R (as.find? p) (bs.find? q) := by
  induction all with
  | nil => exact .none
  | @cons a b _ _ related _ ih =>
    rw [List.find?_cons, List.find?_cons, same a b related]
    cases q b with
    | true => exact .some related
    | false => exact ih

theorem map_eq_of_forall₂ {α β γ : Type} {R : α → β → Prop} {as : List α} {bs : List β}
    {f : α → γ} {g : β → γ} (all : List.Forall₂ R as bs)
    (same : ∀ a ∈ as, ∀ b, R a b → f a = g b) : as.map f = bs.map g := by
  induction all with
  | nil => rfl
  | cons related _ ih =>
    rw [List.forall_mem_cons] at same
    rw [List.map_cons, List.map_cons, same.1 _ related, ih same.2]

theorem forall₂_of_map_eq {α β γ : Type} {as : List α} {bs : List β} {f : α → γ} {g : β → γ}
    (same : as.map f = bs.map g) : List.Forall₂ (fun a b => f a = g b) as bs := by
  rw [← List.forall₂_eq_eq_eq, List.forall₂_map_left_iff, List.forall₂_map_right_iff] at same
  exact same

/-- Where at most one item is looked for, the order does not matter. -/
theorem find?_eq_of_perm {α : Type} {as as' : List α} {p : α → Bool} (perm : as.Perm as')
    (unique : ∀ a ∈ as, ∀ b ∈ as, p a = true → p b = true → a = b) :
    as.find? p = as'.find? p := by
  cases found : as.find? p with
  | none =>
    rw [eq_comm, List.find?_eq_none]
    intro a mem
    exact List.find?_eq_none.mp found a (perm.symm.subset mem)
  | some a =>
    have mem := List.mem_of_find?_eq_some found
    cases found' : as'.find? p with
    | none => exact absurd (List.find?_some found) (List.find?_eq_none.mp found' a (perm.subset mem))
    | some b =>
      have mem' := perm.symm.subset (List.mem_of_find?_eq_some found')
      rw [unique a mem b mem' (List.find?_some found) (List.find?_some found')]

/-- Two lists are related when they are built from related lists, item by item, by steps that keep
the relation. -/
theorem forall₂_of_steps {α α' β β' : Type} {R : α → α' → Prop} {S : α → β → Prop}
    {S' : α' → β' → Prop} {T : β → β' → Prop} {as : List α} {as' : List α'} {bs : List β}
    {bs' : List β'} (related : List.Forall₂ R as as') (built : List.Forall₂ S as bs)
    (built' : List.Forall₂ S' as' bs')
    (step : ∀ a ∈ as, ∀ a' ∈ as', R a a' → ∀ b b', S a b → S' a' b' → T b b') :
    List.Forall₂ T bs bs' := by
  induction related generalizing bs bs' with
  | nil =>
    cases built
    cases built'
    exact .nil
  | cons head _ ih =>
    cases built with
    | cons first rest =>
      cases built' with
      | cons first' rest' =>
        refine .cons (step _ List.mem_cons_self _ List.mem_cons_self head _ _ first first') ?_
        exact ih rest rest' fun a mem a' mem' =>
          step a (List.mem_cons_of_mem _ mem) a' (List.mem_cons_of_mem _ mem')

/-! ### The parts of a built command -/

/-- The first taken alias is missing exactly when the aliases are distinct and none is taken. -/
theorem takenAlias?_eq_none_iff {taken words : List String} :
    takenAlias? taken words = none ↔ words.Nodup ∧ ∀ word ∈ words, word ∉ taken := by
  induction words generalizing taken with
  | nil => simp [takenAlias?]
  | cons word rest ih =>
    unfold takenAlias?
    by_cases clash : word ∈ taken
    · simp [clash]
    · rw [if_neg clash, ih, List.nodup_cons, List.forall_mem_cons]
      simp only [List.mem_cons, not_or]
      constructor
      · rintro ⟨distinct, apart⟩
        exact ⟨⟨fun mem => (apart word mem).1 rfl, distinct⟩, clash,
          fun other mem => (apart other mem).2⟩
      · rintro ⟨⟨fresh, distinct⟩, -, apart⟩
        exact ⟨distinct, fun other mem => ⟨fun same => fresh (same ▸ mem), apart other mem⟩⟩

theorem checkAliases_eq_ok_iff {path : String} {commands : List (String × CommandDecl)} :
    checkAliases path commands = .ok () ↔
      (siblingAliases commands).Nodup ∧
        ∀ word ∈ siblingAliases commands, word ∉ siblingNames commands := by
  rw [← takenAlias?_eq_none_iff]
  unfold checkAliases
  cases takenAlias? (siblingNames commands) (siblingAliases commands) with
  | none => simp
  | some word => simp

theorem CommandFields.binding?_eq_ok_iff {command : CommandFields} {registry : Registry}
    {path : String} {arity : Arity} {binding? : Option Binding} :
    command.binding? registry path arity = .ok binding? ↔
      (command.handler = "" ∧ binding? = none) ∨
        (command.handler ≠ "" ∧ ∃ handler, registry.get? command.handler = some handler ∧
          (handler.isAction = true → arity = .none) ∧
          binding? = some ⟨command.handler, handler⟩) := by
  unfold CommandFields.binding?
  by_cases unbound : command.handler = ""
  · rw [if_pos unbound, Except.ok.injEq]
    constructor
    · exact fun same => .inl ⟨unbound, same.symm⟩
    · rintro (⟨-, same⟩ | ⟨bound, -⟩)
      · exact same.symm
      · exact absurd unbound bound
  · rw [if_neg unbound]
    cases registry.get? command.handler with
    | none => simp [unbound]
    | some handler =>
      by_cases misfit : handler.isAction = true ∧ arity ≠ .none
      · simp [unbound, misfit.1, misfit.2]
      · have fits : handler.isAction = true → arity = .none := fun action =>
          Classical.byContradiction fun words => misfit ⟨action, words⟩
        simp only [if_neg misfit, unbound, false_and, false_or, ne_eq, not_false_eq_true, true_and,
          Option.some.injEq, exists_eq_left', Except.ok.injEq]
        exact ⟨fun same => ⟨fits, same.symm⟩, fun ⟨_, same⟩ => same.symm⟩

theorem buildOwn_eq_ok_iff {registry : Registry} {command : CommandFields} {name path : String}
    {inherited : Scope} {version? : Option String} {commands : List (String × CommandDecl)}
    {own : Built} :
    (buildOwn registry command name path inherited version? commands).result = .ok own ↔
      ∃ arity, command.arity = .ok arity ∧
        ∃ flags, Flags.ofDecls inherited path command.flags = .ok flags ∧
          ∃ binding?, command.binding? registry path arity = .ok binding? ∧
            checkAliases path commands = .ok () ∧
            own = ownParts command name path version? commands arity flags binding? := by
  simp only [buildOwn, Traced.result_bind, Traced.result_ofExcept, Traced.result_reportAll,
    Traced.result_pure, bind_eq_ok_iff, mapError_eq_ok_iff, Except.ok.injEq]
  constructor
  · rintro ⟨arity, resolved, flags, taken, binding?, bound, _, -, _, free, rfl⟩
    exact ⟨arity, resolved, flags, taken, binding?, bound, free, rfl⟩
  · rintro ⟨arity, resolved, flags, taken, binding?, bound, free, rfl⟩
    exact ⟨arity, resolved, flags, taken, binding?, bound, (), trivial, (), free, rfl⟩

/-- A command with those below it, built without the events. The root is built like any other
command, but for its version. -/
def buildNode (registry : Registry) (inherited : Scope) (name path : String)
    (version? : Option String) (c : CommandDecl) : Except BuildError (Grammar × Node) := do
  let own ← (buildOwn registry c.toCommandFields name path inherited version? c.commands).result
  let below ← (buildBelow registry own.inheritable path c.commands).result
  return own.assemble below

theorem buildNode_eq_ok_iff {registry : Registry} {inherited : Scope} {name path : String}
    {version? : Option String} {c : CommandDecl} {built : Grammar × Node} :
    buildNode registry inherited name path version? c = .ok built ↔
      ∃ own, (buildOwn registry c.toCommandFields name path inherited version?
          c.commands).result = .ok own ∧
        ∃ below, (buildBelow registry own.inheritable path c.commands).result = .ok below ∧
          built = own.assemble below := by
  simp only [buildNode, bind_eq_ok_iff, pure_eq_ok_iff, @eq_comm _ _ built]

theorem result_buildCommand (registry : Registry) (inherited : Scope) (name path : String)
    (c : CommandDecl) :
    (buildCommand registry inherited name path c).result =
      buildNode registry inherited name path none c := by
  obtain ⟨fields, commands⟩ := c
  simp only [buildCommand, Traced.result_bind, Traced.result_report, Traced.result_pure]
  rfl

/-- A command that stands below another is built to a grammar and a node. -/
def BuildsBelow (registry : Registry) (inherited : Scope) (parent : String)
    (entry : String × CommandDecl) (built : Grammar × Node) : Prop :=
  buildNode registry inherited (entry.2.nameOr entry.1)
    (childPath parent (entry.2.nameOr entry.1)) none entry.2 = .ok built

/-- Commands that stand side by side are built one by one. -/
theorem buildBelow_eq_ok_iff {registry : Registry} {inherited : Scope} {parent : String}
    {commands : List (String × CommandDecl)} {below : List (Grammar × Node)} :
    (buildBelow registry inherited parent commands).result = .ok below ↔
      List.Forall₂ (BuildsBelow registry inherited parent) commands below := by
  induction commands generalizing below with
  | nil => simp [buildBelow, eq_comm]
  | cons entry rest ih =>
    obtain ⟨key, command⟩ := entry
    simp only [buildBelow, Traced.result_bind, Traced.result_pure, bind_eq_ok_iff,
      result_buildCommand, ih, List.forall₂_cons_left_iff, Except.ok.injEq]
    constructor
    · rintro ⟨first, built, others, all, rfl⟩
      exact ⟨first, others, built, all, rfl⟩
    · rintro ⟨first, others, built, all, rfl⟩
      exact ⟨first, built, others, all, rfl⟩

/-! ### What a scope hands down -/

/-- A scope that a command gets from well-formed commands above it: it holds their persistent
flags, which can be in sight together and do not have the reserved name, and lists those that are
required. -/
structure Scope.Inherits (scope : Scope) (above : List CommandFields) : Prop where
  holds : scope.Holds (persistentFlags above)
  apart : FlagsApart (persistentFlags above)
  unreserved : ∀ flag ∈ persistentFlags above, flag.name ≠ wordsName
  required : scope.required = requiredNames above
  wellFormed : ∀ command ∈ above, command.WellFormed

namespace Scope.Inherits

theorem empty : ({} : Scope).Inherits [] :=
  ⟨Scope.holds_empty, .nil, by simp [persistentFlags], rfl, by simp⟩

variable {inherited : Scope} {above : List CommandFields} {command : CommandFields}

theorem flags_wellFormed (h : inherited.Inherits above) (own : command.WellFormed) :
    ∀ flag ∈ persistentFlags above ++ command.flags, flag.WellFormed := by
  intro flag mem
  rcases List.mem_append.mp mem with upper | own'
  · obtain ⟨command, mem, declared, -⟩ := mem_persistentFlags_iff.mp upper
    exact (h.wellFormed command mem).flags flag declared
  · exact own.flags flag own'

theorem after (h : inherited.Inherits above) (own : command.WellFormed) {path : String}
    {flags : Flags} (taken : Flags.ofDecls inherited path command.flags = .ok flags) :
    Flags.After inherited (persistentFlags above) command.flags flags :=
  Flags.After.ofDecls h.holds (h.flags_wellFormed own) taken

/-- What the commands below a command inherit. -/
theorem handedDown (h : inherited.Inherits above) (own : command.WellFormed) {path : String}
    {flags : Flags} (taken : Flags.ofDecls inherited path command.flags = .ok flags) :
    flags.inheritable.Inherits (above ++ [command]) := by
  have known := h.after own taken
  have one : persistentFlags [command] = command.flags.filter FlagDecl.persistent := by
    simp [persistentFlags]
  have fits := (Flags.isOk_ofDecls_iff h.holds (h.flags_wellFormed own)).mp ⟨flags, taken⟩
  refine ⟨?_, ?_, ?_, ?_, ?_⟩
  · rw [persistentFlags_append, one]
    exact known.inheritable
  · rw [persistentFlags_append, one]
    exact (fits.apart h.apart).sublist (List.filter_sublist.append_left _)
  · rw [persistentFlags_append, one]
    intro flag mem
    rcases List.mem_append.mp mem with upper | own'
    · exact h.unreserved flag upper
    · exact (fits.1 flag (List.mem_of_mem_filter own')).unreserved
  · rw [known.required, h.required, requiredNames_append, requiredNames, requiredNames, one]
  · intro other mem
    rcases List.mem_append.mp mem with upper | own'
    · exact h.wellFormed other upper
    · exact List.mem_singleton.mp own' ▸ own

end Scope.Inherits

/-! ### When a command is built -/

theorem ArgsDecl.bound_of_nonneg {field : String} {value : Int} (h : 0 ≤ value) :
    ArgsDecl.bound field value = .ok value.toNat :=
  if_neg (Int.not_lt.mpr h)

/-- The rule that a kind stands for with the bounds of a declaration. -/
def ArityKind.rule (args : ArgsDecl) : ArityKind → Arity
  | .none => .none
  | .any => .any
  | .exact => .exactly args.count.toNat
  | .min => .atLeast args.min.toNat
  | .max => .atMost args.max.toNat
  | .range => .between args.min.toNat args.max.toNat

theorem ArgsDecl.arity_of_empty {args : ArgsDecl} (empty : args.kind = "") :
    args.arity = .ok .any := by
  rw [ArgsDecl.arity, arityKind_of_empty empty]
  rfl

/-- With bounds that fit the kind, the declaration resolves to the rule of the kind. -/
theorem ArgsDecl.arity_of_admits {args : ArgsDecl} {kind : ArityKind}
    (spelt : args.kind = kind.spelling) (admits : kind.Admits args) :
    args.arity = .ok (kind.rule args) := by
  rw [ArgsDecl.arity, arityKind_of_spelling spelt]
  cases kind with
  | none => rfl
  | any => rfl
  | exact =>
    have count : 0 ≤ args.count := Int.le_trans (by decide) admits
    simp [bind_eq_ok_iff, bound_of_nonneg count, ArityKind.rule]
  | min => simp [bind_eq_ok_iff, bound_of_nonneg admits, ArityKind.rule]
  | max =>
    have max : 0 ≤ args.max := Int.le_trans (by decide) admits
    simp [bind_eq_ok_iff, bound_of_nonneg max, ArityKind.rule]
  | range =>
    have max : 0 ≤ args.max := Int.le_trans (by decide) admits.2.1
    simp [bind_eq_ok_iff, bound_of_nonneg admits.1, bound_of_nonneg max, ArityKind.rule]

/-- A well-formed rule resolves. -/
theorem ArgsDecl.WellFormed.arity {args : ArgsDecl} (h : args.WellFormed) :
    ∃ arity, args.arity = .ok arity := by
  by_cases empty : args.kind = ""
  · exact ⟨.any, arity_of_empty empty⟩
  · obtain ⟨kind, spelt, admits⟩ := h empty
    exact ⟨kind.rule args, arity_of_admits spelt admits⟩

theorem CommandFields.WellFormed.arity {command : CommandFields} (h : command.WellFormed) :
    ∃ arity, command.arity = .ok arity := by
  unfold CommandFields.arity
  cases declared : command.args with
  | none => exact ⟨.any, rfl⟩
  | some args => exact (h.args args declared).arity

/-- A well-formed rule accepts a line with the words that every line needs and no more. -/
theorem ArgsDecl.WellFormed.accepts_fixedSlots {args : ArgsDecl} (h : args.WellFormed)
    {rule : Arity} (resolved : args.arity = .ok rule) : rule.Accepts rule.fixedSlots := by
  by_cases empty : args.kind = ""
  · rw [arity_of_empty empty] at resolved
    cases resolved
    exact rfl
  · obtain ⟨kind, spelt, admits⟩ := h empty
    rw [arity_of_admits spelt admits] at resolved
    cases resolved
    refine Arity.accepts_iff.mpr ⟨Nat.le_refl _, fun limit bounded => ?_⟩
    cases kind with
    | none => exact Nat.zero_le _
    | any => cases bounded
    | exact =>
      cases bounded
      exact Nat.le_refl _
    | min => cases bounded
    | max => exact Nat.zero_le _
    | range =>
      cases bounded
      have ordered : args.min ≤ args.max := admits.2.2
      simp only [ArityKind.rule, Arity.fixedSlots]
      omega

theorem CommandFields.WellFormed.accepts_fixedSlots {command : CommandFields}
    (h : command.WellFormed) {rule : Arity} (resolved : command.arity = .ok rule) :
    rule.Accepts rule.fixedSlots := by
  unfold CommandFields.arity at resolved
  split at resolved
  · next args declared => exact (h.args args declared).accepts_fixedSlots resolved
  · cases resolved
    exact rfl

/-- What a well-formed command needs to be built below some commands: its flags may join those in
sight, its function is registered and takes words only if the command does not refuse them, and
the aliases of the commands below it are free. -/
structure CommandDecl.Fits (registry : Registry) (above : List CommandFields)
    (c : CommandDecl) : Prop where
  flags : FlagsFit (persistentFlags above) c.flags
  handler : c.handler ≠ "" → ∃ handler, registry.get? c.handler = some handler ∧
    (handler.isAction = true → c.arity = .ok .none)
  aliases : (c.commands.flatMap fun (_, child) => child.aliases).Nodup
  aliasesFree : ∀ word ∈ c.commands.flatMap fun (_, child) => child.aliases,
    word ∉ c.commands.map fun (key, child) => child.nameOr key

theorem isOk_binding?_iff {command : CommandFields} {registry : Registry} {path : String}
    {arity : Arity} (resolved : command.arity = .ok arity) :
    (∃ binding?, command.binding? registry path arity = .ok binding?) ↔
      (command.handler ≠ "" → ∃ handler, registry.get? command.handler = some handler ∧
        (handler.isAction = true → command.arity = .ok .none)) := by
  simp only [CommandFields.binding?_eq_ok_iff, resolved, Except.ok.injEq]
  by_cases unbound : command.handler = ""
  · simp [unbound]
  · simp [unbound]

section Command

variable {registry : Registry} {inherited : Scope} {above : List CommandFields}
  {name path : String} {version? : Option String} {c : CommandDecl}

/-- A command is built, but for those below it, exactly when it fits. -/
theorem isOk_buildOwn_iff (h : inherited.Inherits above) (own : c.toCommandFields.WellFormed) :
    (∃ built, (buildOwn registry c.toCommandFields name path inherited version?
      c.commands).result = .ok built) ↔ c.Fits registry above := by
  obtain ⟨arity, resolved⟩ := own.arity
  have flags : (∃ taken, Flags.ofDecls inherited path c.flags = .ok taken) ↔
      FlagsFit (persistentFlags above) c.flags :=
    Flags.isOk_ofDecls_iff h.holds (h.flags_wellFormed own)
  have bound : (∃ binding?, c.binding? registry path arity = .ok binding?) ↔ _ :=
    isOk_binding?_iff resolved
  simp only [buildOwn_eq_ok_iff]
  constructor
  · rintro ⟨_, arity', resolved', taken, ok, binding?, bound', free, rfl⟩
    rw [resolved] at resolved'
    cases resolved'
    obtain ⟨distinct, apart⟩ := checkAliases_eq_ok_iff.mp free
    exact ⟨flags.mp ⟨taken, ok⟩, bound.mp ⟨binding?, bound'⟩, distinct, apart⟩
  · rintro ⟨fits, handler, distinct, apart⟩
    obtain ⟨taken, ok⟩ := flags.mpr fits
    obtain ⟨binding?, bound'⟩ := bound.mpr handler
    exact ⟨_, arity, resolved, taken, ok, binding?, bound',
      checkAliases_eq_ok_iff.mpr ⟨distinct, apart⟩, rfl⟩

theorem Scope.Inherits.inheritable (h : inherited.Inherits above)
    (own : c.toCommandFields.WellFormed) {built : Built}
    (ok : (buildOwn registry c.toCommandFields name path inherited version?
      c.commands).result = .ok built) :
    built.inheritable.Inherits (above ++ [c.toCommandFields]) := by
  obtain ⟨arity, -, flags, taken, binding?, -, -, rfl⟩ := buildOwn_eq_ok_iff.mp ok
  exact h.handedDown own taken

end Command

/-- A well-formed tree of commands is built exactly when each of its commands fits below the
commands above it. -/
theorem isOk_buildNode_iff {registry : Registry} {c : CommandDecl} (wf : c.WellFormed)
    {inherited : Scope} {above : List CommandFields} (h : inherited.Inherits above)
    {name path : String} {version? : Option String} :
    (∃ built, buildNode registry inherited name path version? c = .ok built) ↔
      ∀ between names d, c.Leads between names d → d.Fits registry (above ++ between) := by
  induction c using CommandDecl.induction generalizing inherited above name path version? with
  | step fields commands ih =>
    obtain ⟨⟨own, -⟩, below⟩ := CommandDecl.wellFormed_iff.mp wf
    have commandsBuilt : ∀ built, (buildOwn registry fields name path inherited version?
        commands).result = .ok built →
        ((∃ built', (buildBelow registry built.inheritable path commands).result = .ok built') ↔
          ∀ key child, (key, child) ∈ commands → ∀ between names d,
            child.Leads between names d → d.Fits registry (above ++ (fields :: between))) := by
      intro built ok
      have handed := h.inheritable (c := ⟨fields, commands⟩) own ok
      simp only [buildBelow_eq_ok_iff, exists_forall₂_iff, Prod.forall, BuildsBelow]
      refine forall₃_congr fun key child mem => ?_
      rw [ih (key, child) mem (below key child mem) handed]
      simp
    have top : (∃ built, (buildOwn registry fields name path inherited version?
        commands).result = .ok built) ↔ CommandDecl.Fits registry above ⟨fields, commands⟩ :=
      isOk_buildOwn_iff (c := ⟨fields, commands⟩) h own
    rw [CommandDecl.forall_leads_iff, List.append_nil, ← top]
    simp only [buildNode_eq_ok_iff]
    constructor
    · rintro ⟨_, built, ok, below, all, rfl⟩
      exact ⟨⟨built, ok⟩, (commandsBuilt built ok).mp ⟨below, all⟩⟩
    · rintro ⟨⟨built, ok⟩, fits⟩
      obtain ⟨below, all⟩ := (commandsBuilt built ok).mpr fits
      exact ⟨_, built, ok, below, all, rfl⟩

/-! ### When a tool is built -/

/-- The version that is shown for a tool, if it has one. -/
def ToolDecl.version? (tool : ToolDecl) : Option String :=
  if tool.version = "" then none else some tool.version

theorem buildValid_eq_ok_iff {tool : ToolDecl} {registry : Registry} {tree : Tree} :
    (tool.buildValid registry).result = .ok tree ↔
      buildNode registry {} tool.rootName tool.rootName tool.version? tool.tree =
        .ok (tree.grammar, tree.root) := by
  simp only [ToolDecl.buildValid, Traced.result_bind, Traced.result_report, Traced.result_pure,
    bind_eq_ok_iff, buildNode_eq_ok_iff, Except.ok.injEq]
  constructor
  · rintro ⟨own, ok, below, all, -, -, -, -, rfl⟩
    exact ⟨own, ok, below, all, rfl⟩
  · rintro ⟨own, ok, below, all, same⟩
    refine ⟨own, ok, below, all, (), trivial, (), trivial, ?_⟩
    rw [← same]

theorem build_eq_ok_iff {tool : ToolDecl} {registry : Registry} {tree : Tree} :
    (tool.build registry).result = .ok tree ↔ tool.WellFormed ∧
      buildNode registry {} tool.rootName tool.rootName tool.version? tool.tree =
        .ok (tree.grammar, tree.root) := by
  rw [← ToolDecl.problems_eq_nil_iff, ← buildValid_eq_ok_iff]
  unfold ToolDecl.build
  by_cases valid : tool.problems = []
  · simp [valid]
  · simp [valid]

theorem isOk_build_iff {tool : ToolDecl} {registry : Registry} :
    (∃ tree, (tool.build registry).result = .ok tree) ↔ tool.WellFormed ∧
      ∀ above names c, tool.tree.Leads above names c → c.Fits registry above := by
  have trees : (∃ tree, (tool.build registry).result = .ok tree) ↔ tool.WellFormed ∧
      ∃ built, buildNode registry {} tool.rootName tool.rootName tool.version? tool.tree =
        .ok built := by
    simp only [build_eq_ok_iff, exists_and_left]
    exact and_congr_right fun _ =>
      ⟨fun ⟨tree, ok⟩ => ⟨_, ok⟩, fun ⟨built, ok⟩ => ⟨⟨built.1, built.2⟩, ok⟩⟩
  rw [trees]
  refine and_congr_right fun wf => ?_
  exact isOk_buildNode_iff wf.commands Scope.Inherits.empty

/-- A tool is built exactly when it has no problem and, for the root and every command below it:
no flag has the reserved name, or the name or the shorthand of an earlier flag of the command or of
a persistent flag above it; the default of an int flag denotes an integer of 64 bits; the function
is registered, and an action only for a command that takes no words; and the aliases of the
commands right below differ from each other and from the names of these commands. -/
theorem build_succeeds_iff (tool : ToolDecl) (registry : Registry) :
    (∃ tree, (tool.build registry).result = .ok tree) ↔ tool.problems = [] ∧
      ∀ above names c, tool.tree.Leads above names c →
        (∀ flag ∈ c.flags, flag.name ≠ wordsName) ∧
        (c.flags.Pairwise fun earlier later => ¬ earlier.Clashes later) ∧
        (∀ ancestor ∈ above, ∀ other ∈ ancestor.flags, other.persistent = true →
          ∀ flag ∈ c.flags, ¬ other.Clashes flag) ∧
        (∀ flag ∈ c.flags, flag.kind = FlagKind.int.spelling → flag.defaultText ≠ "" →
          ∃ n, Text.integer? flag.defaultText = some n) ∧
        (c.handler ≠ "" → ∃ handler, registry.get? c.handler = some handler ∧
          (handler.isAction = true → c.arity = .ok .none)) ∧
        (c.commands.flatMap fun (_, child) => child.aliases).Nodup ∧
        ∀ word ∈ c.commands.flatMap fun (_, child) => child.aliases,
          word ∉ c.commands.map fun (key, child) => child.nameOr key := by
  rw [isOk_build_iff, ToolDecl.problems_eq_nil_iff]
  refine and_congr_right fun _ => forall₃_congr fun above names c => forall_congr' fun _ => ?_
  constructor
  · rintro ⟨⟨fits, distinct⟩, handler, aliases, free⟩
    refine ⟨fun flag mem => (fits flag mem).unreserved, distinct, ?_,
      fun flag mem => (fits flag mem).default, handler, aliases, free⟩
    intro ancestor upper other declared persistent flag mem
    exact (fits flag mem).apart other
      (mem_persistentFlags_iff.mpr ⟨ancestor, upper, declared, persistent⟩)
  · rintro ⟨unreserved, distinct, apart, defaults, handler, aliases, free⟩
    refine ⟨⟨fun flag mem => ⟨unreserved flag mem, ?_, defaults flag mem⟩, distinct⟩, handler,
      aliases, free⟩
    intro other seen
    obtain ⟨ancestor, upper, declared, persistent⟩ := mem_persistentFlags_iff.mp seen
    exact apart ancestor upper other declared persistent flag mem

end ToolTree
