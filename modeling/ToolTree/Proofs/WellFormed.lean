import Mathlib.Data.List.Nodup
import ToolTree.Decl.Problem
import ToolTree.Proofs.Lineage

/-!
When a declaration is well formed, said without the list of its problems.

The conditions are those that an author of a declaration has to meet, one command at a time:
`CommandFields.WellFormed` for what a command says of itself, and distinct names of the commands
right below it. `ToolDecl.WellFormed` asks for both at every depth.
`ToolDecl.problems_eq_nil_iff` says that the list of problems is empty exactly then, so nothing is
refused without a cause and nothing ill formed is accepted.
-/

namespace ToolTree

/-! ### Rules on positional words -/

/-- What a kind of rule asks of the bounds. -/
def ArityKind.Admits : ArityKind → ArgsDecl → Prop
  | .none, _ => True
  | .any, _ => True
  | .exact, args => 1 ≤ args.count
  | .min, args => 0 ≤ args.min
  | .max, args => 1 ≤ args.max
  | .range, args => 0 ≤ args.min ∧ 1 ≤ args.max ∧ args.min ≤ args.max

/-- A rule that names no kind, or one of the six with bounds that fit it. -/
def ArgsDecl.WellFormed (args : ArgsDecl) : Prop :=
  args.kind ≠ "" → ∃ kind : ArityKind, args.kind = kind.spelling ∧ kind.Admits args

theorem ArityKind.ofSpelling?_eq_some_iff {word : String} {kind : ArityKind} :
    ofSpelling? word = some kind ↔ word = kind.spelling := by
  constructor
  · intro h
    have spelt : kind.spelling = word := by simpa using List.find?_some h
    exact spelt.symm
  · rintro rfl
    exact ofSpelling?_spelling kind

theorem ArityKind.spelling_injective {kind kind' : ArityKind}
    (same : kind.spelling = kind'.spelling) : kind = kind' := by
  have found := ofSpelling?_spelling kind
  rw [same, ofSpelling?_spelling] at found
  exact (Option.some.inj found).symm

theorem ArityKind.spelling_ne_empty (kind : ArityKind) : kind.spelling ≠ "" := by
  cases kind <;> decide

theorem ArgsDecl.arityKind_of_empty {args : ArgsDecl} (h : args.kind = "") :
    args.arityKind = .ok .none := by
  simp [arityKind, h]

theorem ArgsDecl.arityKind_of_spelling {args : ArgsDecl} {kind : ArityKind}
    (h : args.kind = kind.spelling) : args.arityKind = .ok (some kind) := by
  have ne : args.kind ≠ "" := h ▸ kind.spelling_ne_empty
  have found : ArityKind.ofSpelling? args.kind = some kind :=
    ArityKind.ofSpelling?_eq_some_iff.mpr h
  simp [arityKind, ne, found]

theorem ArgsDecl.arityKind_of_unknown {args : ArgsDecl} (ne : args.kind ≠ "")
    (unknown : ¬ ∃ kind : ArityKind, args.kind = kind.spelling) :
    args.arityKind = .error (.unknownType args.kind) := by
  have notFound : ArityKind.ofSpelling? args.kind = .none := by
    cases h : ArityKind.ofSpelling? args.kind with
    | none => rfl
    | some kind => exact absurd ⟨kind, ArityKind.ofSpelling?_eq_some_iff.mp h⟩ unknown
  simp [arityKind, ne, notFound]

/-- A rule without a problem is one that names no kind or fits the kind that it names. -/
theorem ArgsDecl.problems_eq_nil_iff {args : ArgsDecl} {path : String} :
    args.problems path = [] ↔ args.WellFormed := by
  by_cases empty : args.kind = ""
  · simp [problems, arityKind_of_empty empty, WellFormed, empty]
  · by_cases known : ∃ kind : ArityKind, args.kind = kind.spelling
    · obtain ⟨kind, spelt⟩ := known
      have admits : args.WellFormed ↔ kind.Admits args := by
        constructor
        · intro h
          obtain ⟨kind', spelt', fits⟩ := h empty
          rwa [ArityKind.spelling_injective (spelt.symm.trans spelt')]
        · exact fun fits _ => ⟨kind, spelt, fits⟩
      rw [admits]
      cases kind <;>
        simp [problems, arityKind_of_spelling spelt, ArityKind.Admits]
    · have ill : ¬ args.WellFormed := by
        intro h
        obtain ⟨kind, spelt, -⟩ := h empty
        exact known ⟨kind, spelt⟩
      simp [problems, arityKind_of_unknown empty known, ill]

/-! ### Flags -/

/-- A flag that has a name, one of the four value types, a usage text and a shorthand of at most
one character. -/
structure FlagDecl.WellFormed (flag : FlagDecl) : Prop where
  named : flag.name ≠ ""
  typed : ∃ kind : FlagKind, flag.kind = kind.spelling
  explained : flag.usage ≠ ""
  short : flag.shorthand.length ≤ 1

theorem FlagKind.spelling_ne_empty (kind : FlagKind) : kind.spelling ≠ "" := by
  cases kind <;> decide

theorem FlagKind.ofSpelling_eq_ok_iff {word : String} {kind : FlagKind} :
    ofSpelling word = .ok kind ↔ word = kind.spelling := by
  constructor
  · intro h
    unfold ofSpelling at h
    split at h
    · next found =>
      cases h
      have spelt : kind.spelling = word := by simpa using List.find?_some found
      exact spelt.symm
    · cases h
  · rintro rfl
    exact ofSpelling_spelling kind

theorem FlagDecl.isOk_flagKind_iff {flag : FlagDecl} :
    flag.flagKind.isOk = true ↔ ∃ kind : FlagKind, flag.kind = kind.spelling := by
  unfold flagKind
  constructor
  · intro h
    cases found : FlagKind.ofSpelling flag.kind with
    | ok kind => exact ⟨kind, FlagKind.ofSpelling_eq_ok_iff.mp found⟩
    | error e =>
      rw [found] at h
      cases h
  · rintro ⟨kind, spelt⟩
    rw [FlagKind.ofSpelling_eq_ok_iff.mpr spelt]
    rfl

theorem FlagDecl.shortChar?_eq_none_iff {flag : FlagDecl} :
    flag.shortChar? = none ↔ flag.shorthand.length ≠ 1 := by
  unfold shortChar?
  rw [← String.length_toList, ne_eq, List.length_eq_one_iff]
  split
  · next c letters => simp [letters]
  · next other =>
    simp only [true_iff, not_exists]
    exact other

/-- A flag without a problem of its own is well formed. -/
theorem FlagDecl.problems_eq_nil_iff {flag : FlagDecl} {path : String} {ref : FlagRef} :
    flag.problems path ref = [] ↔ flag.WellFormed := by
  have kindFits : (if flag.kind = "" then [Problem.missingFlagType path ref]
      else if flag.flagKind.isOk then [] else [.invalidFlagType path ref flag.kind]) = [] ↔
      ∃ kind : FlagKind, flag.kind = kind.spelling := by
    rw [← isOk_flagKind_iff]
    by_cases empty : flag.kind = ""
    · have unknown : ¬ flag.flagKind.isOk = true := by
        rw [isOk_flagKind_iff]
        rintro ⟨kind, spelt⟩
        exact kind.spelling_ne_empty (spelt ▸ empty)
      simp [empty, unknown]
    · simp [empty]
  have shortFits : ¬ (flag.shorthand ≠ "" ∧ flag.shortChar? = none) ↔
      flag.shorthand.length ≤ 1 := by
    rw [shortChar?_eq_none_iff, ne_eq, ← String.length_eq_zero_iff]
    omega
  simp only [problems, List.append_eq_nil_iff, kindFits, ite_eq_right_iff, List.cons_ne_nil,
    imp_false, shortFits]
  exact ⟨fun ⟨⟨⟨named, typed⟩, explained⟩, short⟩ => ⟨named, typed, explained, short⟩,
    fun ⟨named, typed, explained, short⟩ => ⟨⟨⟨named, typed⟩, explained⟩, short⟩⟩

theorem flagProblems_eq_nil_iff {path : String} {flags : List FlagDecl} :
    flagProblems path flags = [] ↔ ∀ flag ∈ flags, flag.WellFormed := by
  simp only [flagProblems, List.flatMap_eq_nil_iff, Prod.forall,
    FlagDecl.problems_eq_nil_iff]
  constructor
  · intro h flag mem
    obtain ⟨position, at?⟩ := List.mem_iff_getElem?.mp mem
    exact h flag position (List.mk_mem_zipIdx_iff_getElem?.mpr at?)
  · intro h flag position mem
    exact h flag (List.fst_mem_of_mem_zipIdx mem)

/-! ### Commands -/

/-- A command that is well formed but for the commands below it. -/
structure CommandFields.WellFormed (command : CommandFields) : Prop where
  used : command.useLine ≠ ""
  summarized : command.summary ≠ ""
  args : ∀ args, command.args = some args → args.WellFormed
  flags : ∀ flag ∈ command.flags, flag.WellFormed
  names : ((command.flags.map FlagDecl.name).filter (· ≠ "")).Nodup
  shorthands : ((command.flags.map FlagDecl.shorthand).filter (· ≠ "")).Nodup

theorem CommandFields.WellFormed.eq_of_name_eq {command : CommandFields} (h : command.WellFormed)
    {flag other : FlagDecl} (mem : flag ∈ command.flags) (mem' : other ∈ command.flags)
    (same : flag.name = other.name) : flag = other := by
  have named : command.flags.map FlagDecl.name =
      (command.flags.map FlagDecl.name).filter (· ≠ "") := by
    rw [eq_comm, List.filter_eq_self]
    intro name declared
    obtain ⟨flag, mem, rfl⟩ := List.mem_map.mp declared
    simpa using (h.flags flag mem).named
  have distinct := h.names
  rw [← named] at distinct
  exact List.inj_on_of_nodup_map distinct mem mem' same

/-- No word but the empty one occurs twice or is among the words taken before. -/
def Unrepeated (taken words : List String) : Prop :=
  (words.filter (· ≠ "")).Nodup ∧ ∀ word ∈ words, word ≠ "" → word ∉ taken

theorem unrepeated_nil_iff {words : List String} :
    Unrepeated [] words ↔ (words.filter (· ≠ "")).Nodup := by
  simp [Unrepeated]

theorem unrepeated_cons_iff {taken : List String} {word : String} {rest : List String} :
    Unrepeated taken (word :: rest) ↔
      ¬ (word ≠ "" ∧ word ∈ taken) ∧ Unrepeated (word :: taken) rest := by
  unfold Unrepeated
  by_cases empty : word = ""
  · subst empty
    simp only [List.filter_cons, List.mem_cons, ne_eq]
    grind
  · simp only [List.filter_cons, List.mem_cons, ne_eq]
    grind

/-- The scan for reuse finds nothing when no name and no shorthand is repeated. The words of the
flags before are the invariant of the scan. -/
theorem reuseProblems_eq_nil_iff {path : String} {names shorthands : List String}
    {flags : List FlagDecl} :
    reuseProblems path names shorthands flags = [] ↔
      Unrepeated names (flags.map FlagDecl.name) ∧
        Unrepeated shorthands (flags.map FlagDecl.shorthand) := by
  induction flags generalizing names shorthands with
  | nil => simp [reuseProblems, Unrepeated]
  | cons flag rest ih =>
    simp only [reuseProblems, List.append_eq_nil_iff, ih, List.map_cons, unrepeated_cons_iff,
      ite_eq_right_iff, List.cons_ne_nil, imp_false]
    exact ⟨fun ⟨⟨name, short⟩, names, shorts⟩ => ⟨⟨name, names⟩, short, shorts⟩,
      fun ⟨⟨name, names⟩, short, shorts⟩ => ⟨⟨name, short⟩, names, shorts⟩⟩

theorem CommandFields.problems_eq_append (command : CommandFields) (path : String) :
    command.problems path =
      (if command.useLine = "" then [.missingUse path] else []) ++
        (if command.summary = "" then [.missingShort path] else []) ++
        (command.args.elim [] fun args => args.problems path) ++
        flagProblems path command.flags ++
        reuseProblems path [] [] command.flags := by
  unfold problems
  cases command.args <;> rfl

/-- A command without a problem, those of the commands below it apart, is well formed. -/
theorem CommandFields.problems_eq_nil_iff {command : CommandFields} {path : String} :
    command.problems path = [] ↔ command.WellFormed := by
  have argsFit : (command.args.elim [] fun args => args.problems path) = [] ↔
      ∀ args, command.args = some args → args.WellFormed := by
    cases command.args with
    | none => simp
    | some args => simp [ArgsDecl.problems_eq_nil_iff]
  simp only [problems_eq_append, List.append_eq_nil_iff, ite_eq_right_iff, List.cons_ne_nil,
    imp_false, argsFit, flagProblems_eq_nil_iff, reuseProblems_eq_nil_iff, unrepeated_nil_iff]
  exact ⟨fun ⟨⟨⟨⟨used, summarized⟩, args⟩, flags⟩, names, shorthands⟩ =>
      ⟨used, summarized, args, flags, names, shorthands⟩,
    fun ⟨used, summarized, args, flags, names, shorthands⟩ =>
      ⟨⟨⟨⟨used, summarized⟩, args⟩, flags⟩, names, shorthands⟩⟩

/-! ### Trees -/

theorem siblingNames_append_cons (before after : List (String × CommandDecl)) (key : String)
    (child : CommandDecl) : siblingNames (before ++ (key, child) :: after) =
      siblingNames before ++ child.nameOr key :: siblingNames after := by
  rw [siblingNames, List.map_append, List.map_cons]
  rfl

/-- The scan of siblings finds nothing when their names are distinct and not taken before, and no
tree of theirs has a problem. -/
theorem siblingProblems_eq_nil_iff {clash : String → Problem} {pathOf : String → String}
    {taken : List String} {commands : List (String × CommandDecl)} :
    siblingProblems clash pathOf taken commands = [] ↔
      (siblingNames commands).Nodup ∧ (∀ name ∈ siblingNames commands, name ∉ taken) ∧
        ∀ key command, (key, command) ∈ commands → command.problems (pathOf key) = [] := by
  induction commands generalizing taken with
  | nil => simp [siblingProblems, siblingNames]
  | cons entry rest ih =>
    obtain ⟨key, command⟩ := entry
    simp only [siblingProblems, List.append_eq_nil_iff, ite_eq_right_iff, List.cons_ne_nil,
      imp_false, ih]
    simp only [siblingNames, List.map_cons, List.nodup_cons, List.mem_cons]
    grind

/-- A command is well formed, and so is each below it, and siblings have distinct names. -/
def CommandDecl.WellFormed (c : CommandDecl) : Prop :=
  ∀ above names d, c.Leads above names d →
    d.toCommandFields.WellFormed ∧ (siblingNames d.commands).Nodup

theorem CommandDecl.wellFormed_iff {fields : CommandFields}
    {commands : List (String × CommandDecl)} :
    CommandDecl.WellFormed ⟨fields, commands⟩ ↔
      (fields.WellFormed ∧ (siblingNames commands).Nodup) ∧
        ∀ key command, (key, command) ∈ commands → command.WellFormed :=
  forall_leads_iff

/-- Names lead from a well-formed command to one command at most. -/
theorem CommandDecl.Leads.unique {c : CommandDecl} (wf : c.WellFormed)
    {above above' : List CommandFields} {names : List String} {d d' : CommandDecl}
    (leads : c.Leads above names d) (leads' : c.Leads above' names d') :
    above = above' ∧ d = d' := by
  induction leads generalizing above' with
  | here =>
    cases leads'
    exact ⟨rfl, rfl⟩
  | @down c key child above names d entry leads ih =>
    obtain ⟨fields, commands⟩ := c
    obtain ⟨⟨-, distinct⟩, below⟩ := CommandDecl.wellFormed_iff.mp wf
    generalize named : child.nameOr key :: names = path at leads'
    cases leads' with
    | here => cases named
    | @down _ key' child' above' names' d' entry' leads' =>
      obtain ⟨sameName, rfl⟩ := List.cons.inj named
      have same : (key, child) = (key', child') :=
        List.inj_on_of_nodup_map distinct entry entry' sameName
      cases same
      obtain ⟨rfl, rfl⟩ := ih (below key child entry) leads'
      exact ⟨rfl, rfl⟩

theorem CommandDecl.problems_eq_nil_iff {c : CommandDecl} {path : String} :
    c.problems path = [] ↔ c.WellFormed := by
  induction c using CommandDecl.induction generalizing path with
  | step fields commands ih =>
    have below : (∀ key command, (key, command) ∈ commands →
        command.problems (path ++ "/" ++ key) = []) ↔
        ∀ key command, (key, command) ∈ commands → command.WellFormed :=
      ⟨fun h key command mem => (ih _ mem).mp (h key command mem),
        fun h key command mem => (ih _ mem).mpr (h key command mem)⟩
    rw [problems, List.append_eq_nil_iff, CommandFields.problems_eq_nil_iff,
      siblingProblems_eq_nil_iff, below, wellFormed_iff]
    simp [and_assoc]

/-- A tool that has a name, whose root declares nothing below itself, and whose commands are well
formed at every depth, the root included. -/
structure ToolDecl.WellFormed (tool : ToolDecl) : Prop where
  named : tool.name ≠ ""
  flatRoot : tool.root.commands = []
  commands : tool.tree.WellFormed

/-- A tool has no problem exactly when it is well formed. -/
theorem ToolDecl.problems_eq_nil_iff {tool : ToolDecl} :
    tool.problems = [] ↔ tool.WellFormed := by
  have below : (∀ key command, (key, command) ∈ tool.commands →
      command.problems (id key) = []) ↔
      ∀ key command, (key, command) ∈ tool.commands → command.WellFormed :=
    forall₃_congr fun _ _ _ => CommandDecl.problems_eq_nil_iff
  simp only [ToolDecl.problems, List.append_eq_nil_iff, ite_eq_right_iff, List.cons_ne_nil,
    imp_false, CommandFields.problems_eq_nil_iff, siblingProblems_eq_nil_iff, below]
  constructor
  · rintro ⟨⟨⟨named, root⟩, flat⟩, distinct, -, commands⟩
    exact ⟨named, by simpa using flat,
      CommandDecl.wellFormed_iff.mpr ⟨⟨root, distinct⟩, commands⟩⟩
  · rintro ⟨named, flat, tree⟩
    obtain ⟨⟨root, distinct⟩, commands⟩ := CommandDecl.wellFormed_iff.mp tree
    exact ⟨⟨⟨named, root⟩, by simp [flat]⟩, distinct, by simp, commands⟩

/-- A tool has no problem exactly when it has a name, its root declares nothing below itself, and
the root and every command below it has a use line and a summary, a rule on words that names no
kind or fits the kind that it names, flags that are complete and differ in name and shorthand, and
commands right below it that differ in name. -/
theorem problems_eq_nil_iff_forall_leads (tool : ToolDecl) :
    tool.problems = [] ↔
      tool.name ≠ "" ∧ tool.root.commands = [] ∧
        ∀ above names c, tool.tree.Leads above names c →
          (c.useLine ≠ "" ∧ c.summary ≠ "") ∧
          (∀ args, c.args = some args → args.kind ≠ "" →
            ∃ kind : ArityKind, args.kind = kind.spelling ∧ kind.Admits args) ∧
          (∀ flag ∈ c.flags, flag.name ≠ "" ∧
            (∃ kind : FlagKind, flag.kind = kind.spelling) ∧ flag.usage ≠ "" ∧
            flag.shorthand.length ≤ 1) ∧
          ((c.flags.map FlagDecl.name).filter (· ≠ "")).Nodup ∧
          ((c.flags.map FlagDecl.shorthand).filter (· ≠ "")).Nodup ∧
          (siblingNames c.commands).Nodup := by
  rw [ToolDecl.problems_eq_nil_iff]
  constructor
  · rintro ⟨named, flat, commands⟩
    refine ⟨named, flat, fun above names c leads => ?_⟩
    obtain ⟨⟨used, summarized, args, flags, distinct, shorts⟩, siblings⟩ :=
      commands above names c leads
    exact ⟨⟨used, summarized⟩, args,
      fun flag mem => ⟨(flags flag mem).named, (flags flag mem).typed, (flags flag mem).explained,
        (flags flag mem).short⟩, distinct, shorts, siblings⟩
  · rintro ⟨named, flat, commands⟩
    refine ⟨named, flat, fun above names c leads => ?_⟩
    obtain ⟨⟨used, summarized⟩, args, flags, distinct, shorts, siblings⟩ :=
      commands above names c leads
    refine ⟨⟨used, summarized, args, fun flag mem => ?_, distinct, shorts⟩, siblings⟩
    obtain ⟨named, typed, explained, short⟩ := flags flag mem
    exact ⟨named, typed, explained, short⟩

end ToolTree
