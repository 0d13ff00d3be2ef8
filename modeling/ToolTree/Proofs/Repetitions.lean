import Mathlib.Data.List.Count
import ToolTree.Proofs.WellFormed

/-!
How often a repeated name is reported.

A scan for names that are used more than once reports every use but the first. `repeats` lists these
uses, and up to order a scan reports one problem for each of them (`reuseProblems_perm`). A scan of
commands reports the problems of the trees below in between (`siblingProblems_perm`); every problem
names the command that it is about, and those below have longer paths than the one that is scanned,
so the reports of different scans are not mixed up. Counting the repeats then counts the reports
(`repetitions_reported`).
-/

namespace ToolTree

/-! ### Repeated words -/

/-- The words that occurred before, among the words `taken` or earlier in the list. -/
def repeats (taken : List String) : List String → List String
  | [] => []
  | word :: rest => (if word ∈ taken then [word] else []) ++ repeats (word :: taken) rest

/-- The first occurrence of a word counts only if the word was taken before. -/
theorem count_repeats (taken words : List String) (word : String) :
    (repeats taken words).count word = words.count word - if word ∈ taken then 0 else 1 := by
  induction words generalizing taken with
  | nil => simp [repeats]
  | cons first rest ih =>
    rw [repeats, List.count_append, ih, List.count_cons]
    by_cases same : first = word
    · subst same
      by_cases seen : first ∈ taken <;> simp [seen, Nat.add_comm]
    · have other : (if first ∈ taken then [first] else []).count word = 0 := by
        split <;> simp [same]
      simp [other, same, Ne.symm same]

theorem count_repeats_nil (words : List String) (word : String) :
    (repeats [] words).count word = words.count word - 1 :=
  count_repeats [] words word

/-- Empty words apart. -/
theorem count_filter_repeats (words : List String) (word : String) :
    ((repeats [] words).filter (· ≠ "")).count word = (words.filter (· ≠ "")).count word - 1 := by
  by_cases empty : word = ""
  · have absent (ws : List String) : (ws.filter (· ≠ "")).count word = 0 := by
      simp [List.count_eq_zero, empty]
    rw [absent, absent]
  · have kept (ws : List String) : (ws.filter (· ≠ "")).count word = ws.count word :=
      List.count_filter (by simpa using empty)
    rw [kept, kept, count_repeats_nil]

/-- A word that does not occur yet repeats nothing, wherever it is put. -/
theorem repeats_perm_of_fresh {before after : List String} {word : String}
    (fresh : word ∉ before ++ after) :
    (repeats [] (before ++ word :: after)).Perm (repeats [] (before ++ after)) := by
  refine List.perm_iff_count.mpr fun other => ?_
  rw [count_repeats_nil, count_repeats_nil, List.count_append, List.count_cons,
    ← Nat.add_assoc, ← List.count_append]
  by_cases same : word = other
  · subst same
    simp [List.count_eq_zero.mpr fresh]
  · simp [same]

/-- Nor does an empty word, among the repeated words that are not empty. -/
theorem filter_repeats_perm {before after : List String} {word : String}
    (new : word = "" ∨ word ∉ before ++ after) :
    ((repeats [] (before ++ word :: after)).filter (· ≠ "")).Perm
      ((repeats [] (before ++ after)).filter (· ≠ "")) := by
  rcases new with rfl | fresh
  · refine List.perm_iff_count.mpr fun other => ?_
    rw [count_filter_repeats, count_filter_repeats, List.filter_append, List.filter_append,
      List.filter_cons_of_neg (by simp)]
  · exact (repeats_perm_of_fresh fresh).filter _

/-! ### The two scans -/

theorem append_swap_perm {α : Type} (a b c d : List α) :
    (a ++ b ++ (c ++ d)).Perm (a ++ c ++ (b ++ d)) := by
  rw [List.append_assoc, List.append_assoc, ← List.append_assoc b, ← List.append_assoc c]
  exact (List.perm_append_comm.append_right d).append_left a

/-- The scan of flags reports the repeated names and the repeated shorthands, and nothing else. -/
theorem reuseProblems_perm (path : String) (names shorthands : List String)
    (flags : List FlagDecl) :
    (reuseProblems path names shorthands flags).Perm
      (((repeats names (flags.map FlagDecl.name)).filter (· ≠ "")).map
          (Problem.duplicateFlagName path) ++
        ((repeats shorthands (flags.map FlagDecl.shorthand)).filter (· ≠ "")).map
          (Problem.duplicateShorthand path)) := by
  have report (clash : String → Problem) (word : String) (taken : List String) :
      (if word ≠ "" ∧ word ∈ taken then [clash word] else []) =
        ((if word ∈ taken then [word] else []).filter (· ≠ "")).map clash := by
    by_cases seen : word ∈ taken <;> by_cases empty : word = "" <;> simp [seen, empty]
  induction flags generalizing names shorthands with
  | nil => exact .refl _
  | cons flag rest ih =>
    rw [reuseProblems, report, report, List.map_cons, List.map_cons, repeats, repeats,
      List.filter_append, List.filter_append, List.map_append, List.map_append]
    exact ((ih _ _).append_left _).trans (append_swap_perm ..)

/-- The scan of commands reports the repeated names, and the problems of the trees below. -/
theorem siblingProblems_perm (clash : String → Problem) (pathOf : String → String)
    (taken : List String) (commands : List (String × CommandDecl)) :
    (siblingProblems clash pathOf taken commands).Perm
      ((repeats taken (siblingNames commands)).map clash ++
        commands.flatMap fun (key, command) => command.problems (pathOf key)) := by
  have report (name : String) (taken : List String) :
      (if name ∈ taken then [clash name] else []) =
        (if name ∈ taken then [name] else []).map clash := by
    split <;> rfl
  induction commands generalizing taken with
  | nil =>
    rw [siblingProblems]
    exact .refl _
  | cons entry rest ih =>
    obtain ⟨key, command⟩ := entry
    rw [siblingProblems, report, siblingNames, List.map_cons, repeats, List.map_append,
      List.flatMap_cons]
    exact ((ih _).append_left _).trans (append_swap_perm ..)

/-! ### The command that a problem names -/

/-- The path of the command that a problem is about, if it is about one command. -/
def Problem.place? : Problem → Option String
  | missingToolName => none
  | missingUse path => path
  | missingShort path => path
  | rootSubcommands path => path
  | invalidArgsType path _ => path
  | exactCountTooSmall path => path
  | negativeMin path _ => path
  | maxTooSmall path _ => path
  | invertedRange path _ _ => path
  | missingFlagName path _ => path
  | missingFlagType path _ => path
  | missingFlagUsage path _ => path
  | invalidFlagType path _ _ => path
  | invalidShorthand path _ _ => path
  | duplicateFlagName path _ => path
  | duplicateShorthand path _ => path
  | duplicateRootCommand _ => none
  | duplicateSubcommand path _ => path

/-- A list of problems that are all about the command at a path. -/
def AllAt (path : String) (problems : List Problem) : Prop :=
  ∀ problem ∈ problems, problem.place? = some path

section AllAt

variable {path : String} {problems more : List Problem}

@[simp] theorem allAt_nil : AllAt path [] := by
  simp [AllAt]

@[simp] theorem allAt_singleton {problem : Problem} :
    AllAt path [problem] ↔ problem.place? = some path := by
  simp [AllAt]

theorem AllAt.append (h : AllAt path problems) (h' : AllAt path more) :
    AllAt path (problems ++ more) :=
  List.forall_mem_append.mpr ⟨h, h'⟩

theorem AllAt.ite {condition : Prop} [Decidable condition] (h : AllAt path problems)
    (h' : AllAt path more) : AllAt path (if condition then problems else more) := by
  split
  · exact h
  · exact h'

end AllAt

/-- A problem that is reported under a condition. -/
theorem allAt_of_condition {path : String} {problem : Problem} (at? : problem.place? = some path)
    (condition : Prop) [Decidable condition] :
    AllAt path (if condition then [problem] else []) :=
  .ite (allAt_singleton.mpr at?) allAt_nil

theorem ArgsDecl.allAt_problems (args : ArgsDecl) (path : String) :
    AllAt path (args.problems path) := by
  unfold problems
  split
  · exact allAt_singleton.mpr rfl
  · exact allAt_nil
  · exact allAt_nil
  · exact allAt_nil
  · exact allAt_of_condition rfl _
  · exact allAt_of_condition rfl _
  · exact allAt_of_condition rfl _
  · exact ((allAt_of_condition rfl _).append (allAt_of_condition rfl _)).append
      (allAt_of_condition rfl _)

theorem FlagDecl.allAt_problems (flag : FlagDecl) (path : String) (ref : FlagRef) :
    AllAt path (flag.problems path ref) := by
  unfold problems
  have typed : AllAt path (if flag.kind = "" then [.missingFlagType path ref]
      else if flag.flagKind.isOk then [] else [.invalidFlagType path ref flag.kind]) :=
    .ite (allAt_singleton.mpr rfl) (.ite allAt_nil (allAt_singleton.mpr rfl))
  exact (((allAt_of_condition rfl _).append typed).append (allAt_of_condition rfl _)).append
    (allAt_of_condition rfl _)

theorem allAt_reuseProblems (path : String) (names shorthands : List String)
    (flags : List FlagDecl) : AllAt path (reuseProblems path names shorthands flags) := by
  intro problem mem
  rcases List.mem_append.mp ((reuseProblems_perm ..).subset mem) with mem | mem
  · obtain ⟨name, -, rfl⟩ := List.mem_map.mp mem
    rfl
  · obtain ⟨shorthand, -, rfl⟩ := List.mem_map.mp mem
    rfl

/-- What is wrong with a command itself is reported for its path. -/
theorem CommandFields.allAt_problems (command : CommandFields) (path : String) :
    AllAt path (command.problems path) := by
  rw [problems_eq_append]
  have rule : AllAt path (command.args.elim [] fun args => args.problems path) := by
    cases command.args with
    | none => exact allAt_nil
    | some args => exact args.allAt_problems path
  have flags : AllAt path (flagProblems path command.flags) := by
    intro problem mem
    obtain ⟨⟨flag, position⟩, -, mem⟩ := List.mem_flatMap.mp mem
    exact flag.allAt_problems path _ problem mem
  exact ((((allAt_of_condition rfl _).append (allAt_of_condition rfl _)).append rule).append
    flags).append (allAt_reuseProblems path [] [] command.flags)

/-- What is wrong with a command or below it is reported for its path or one that goes on from
there. -/
theorem CommandDecl.place?_of_mem_problems {c : CommandDecl} {path : String} {problem : Problem}
    (mem : problem ∈ c.problems path) : ∃ place, problem.place? = some place ∧
      path.toList <+: place.toList := by
  induction c using CommandDecl.induction generalizing path with
  | step fields commands ih =>
    rw [problems] at mem
    rcases List.mem_append.mp mem with own | below
    · exact ⟨path, fields.allAt_problems path problem own, List.prefix_refl _⟩
    · rcases List.mem_append.mp ((siblingProblems_perm ..).subset below) with clash | deeper
      · obtain ⟨name, -, rfl⟩ := List.mem_map.mp clash
        exact ⟨path, rfl, List.prefix_refl _⟩
      · obtain ⟨⟨key, child⟩, entry, mem⟩ := List.mem_flatMap.mp deeper
        obtain ⟨place, at?, further⟩ := ih (key, child) entry mem
        rw [String.toList_append, String.toList_append, List.append_assoc] at further
        exact ⟨place, at?, (List.prefix_append _ _).trans further⟩

/-! ### Counting reports -/

section Flags

variable (path : String) (flags : List FlagDecl)

theorem count_duplicateFlagName (name : String) :
    (reuseProblems path [] [] flags).count (.duplicateFlagName path name) =
      ((flags.map FlagDecl.name).filter (· ≠ "")).count name - 1 := by
  have injective : Function.Injective (Problem.duplicateFlagName path) :=
    fun _ _ same => (Problem.duplicateFlagName.inj same).2
  have other (shorthands : List String) :
      (shorthands.map (Problem.duplicateShorthand path)).count (.duplicateFlagName path name) = 0 :=
    List.count_eq_zero.mpr (by simp)
  rw [(reuseProblems_perm ..).count_eq, List.count_append,
    List.count_map_of_injective _ _ injective, count_filter_repeats, other, Nat.add_zero]

theorem count_duplicateShorthand (shorthand : String) :
    (reuseProblems path [] [] flags).count (.duplicateShorthand path shorthand) =
      ((flags.map FlagDecl.shorthand).filter (· ≠ "")).count shorthand - 1 := by
  have injective : Function.Injective (Problem.duplicateShorthand path) :=
    fun _ _ same => (Problem.duplicateShorthand.inj same).2
  have other (names : List String) :
      (names.map (Problem.duplicateFlagName path)).count (.duplicateShorthand path shorthand) = 0 :=
    List.count_eq_zero.mpr (by simp)
  rw [(reuseProblems_perm ..).count_eq, List.count_append,
    List.count_map_of_injective _ _ injective, count_filter_repeats, other, Nat.zero_add]

theorem duplicate_of_mem_reuseProblems {problem : Problem}
    (mem : problem ∈ reuseProblems path [] [] flags) :
    (∃ name, problem = .duplicateFlagName path name) ∨
      ∃ shorthand, problem = .duplicateShorthand path shorthand := by
  rcases List.mem_append.mp ((reuseProblems_perm ..).subset mem) with mem | mem
  · obtain ⟨name, -, rfl⟩ := List.mem_map.mp mem
    exact .inl ⟨name, rfl⟩
  · obtain ⟨shorthand, -, rfl⟩ := List.mem_map.mp mem
    exact .inr ⟨shorthand, rfl⟩

variable {path} {before after : List FlagDecl} {flag : FlagDecl}

/-- A flag with a name that no other has adds no report on names. -/
theorem count_duplicateFlagName_of_fresh
    (name : flag.name ∉ (before ++ after).map FlagDecl.name) (reported : String) :
    (reuseProblems path [] [] (before ++ flag :: after)).count
        (.duplicateFlagName path reported) =
      (reuseProblems path [] [] (before ++ after)).count (.duplicateFlagName path reported) := by
  rw [List.map_append] at name
  rw [count_duplicateFlagName, count_duplicateFlagName, ← count_filter_repeats,
    ← count_filter_repeats, List.map_append, List.map_append, List.map_cons]
  exact (filter_repeats_perm (.inr name)).count_eq reported

/-- And no report at all if no other has its shorthand. -/
theorem reuseProblems_perm_of_fresh (name : flag.name ∉ (before ++ after).map FlagDecl.name)
    (shorthand : flag.shorthand = "" ∨
      flag.shorthand ∉ (before ++ after).map FlagDecl.shorthand) :
    (reuseProblems path [] [] (before ++ flag :: after)).Perm
      (reuseProblems path [] [] (before ++ after)) := by
  rw [List.map_append] at name shorthand
  refine (reuseProblems_perm ..).trans (.trans ?_ (reuseProblems_perm ..).symm)
  simp only [List.map_append, List.map_cons]
  exact ((filter_repeats_perm (.inr name)).map _).append ((filter_repeats_perm shorthand).map _)

end Flags

section Siblings

variable {clash : String → Problem} {pathOf : String → String}

/-- Where no problem of a tree below is taken for a report of the scan, a name that so many siblings
share is reported once less. -/
theorem count_clash (injective : Function.Injective clash)
    (apart : ∀ name key (child : CommandDecl), clash name ∉ child.problems (pathOf key))
    (commands : List (String × CommandDecl)) (name : String) :
    (siblingProblems clash pathOf [] commands).count (clash name) =
      (siblingNames commands).count name - 1 := by
  have below : clash name ∉
      commands.flatMap fun (key, command) => command.problems (pathOf key) := by
    rw [List.mem_flatMap]
    rintro ⟨⟨key, child⟩, -, mem⟩
    exact apart name key child mem
  rw [(siblingProblems_perm ..).count_eq, List.count_append,
    List.count_map_of_injective _ _ injective, count_repeats_nil, List.count_eq_zero.mpr below,
    Nat.add_zero]

/-- A command with a name that no sibling has adds its own problems and no report of the scan. -/
theorem siblingProblems_perm_of_fresh {before after : List (String × CommandDecl)} {key : String}
    {child : CommandDecl} (fresh : child.nameOr key ∉ siblingNames (before ++ after)) :
    (siblingProblems clash pathOf [] (before ++ (key, child) :: after)).Perm
      (child.problems (pathOf key) ++ siblingProblems clash pathOf [] (before ++ after)) := by
  have apart : siblingNames (before ++ after) = siblingNames before ++ siblingNames after :=
    List.map_append
  rw [apart] at fresh
  have names := (repeats_perm_of_fresh fresh).map clash
  have trees : ((before ++ (key, child) :: after).flatMap
      fun (key, command) => command.problems (pathOf key)).Perm
      (child.problems (pathOf key) ++
        (before ++ after).flatMap fun (key, command) => command.problems (pathOf key)) :=
    List.perm_middle.flatMap_right _
  refine (siblingProblems_perm ..).trans (.trans ?_ ((siblingProblems_perm ..).symm.append_left _))
  rw [siblingNames_append_cons, apart]
  refine (names.append trees).trans ?_
  rw [← List.append_assoc, ← List.append_assoc]
  exact List.perm_append_comm.append_right _

end Siblings

/-- A scan of the commands below a command reports nothing that a tree below reports. -/
theorem duplicateSubcommand_notMem (path name key : String) (child : CommandDecl) :
    Problem.duplicateSubcommand path name ∉ child.problems (path ++ "/" ++ key) := by
  intro mem
  obtain ⟨place, at?, further⟩ := CommandDecl.place?_of_mem_problems mem
  cases at?
  have longer := further.length_le
  simp only [String.toList_append, List.length_append, String.length_toList] at longer
  have slash : "/".length = 1 := rfl
  omega

theorem duplicateRootCommand_notMem (name key : String) (child : CommandDecl) :
    Problem.duplicateRootCommand name ∉ child.problems (id key) := by
  intro mem
  obtain ⟨place, at?, -⟩ := CommandDecl.place?_of_mem_problems mem
  cases at?

/-- Each repetition is reported once. A flag name, or a shorthand, that so many flags have is
reported once less, the empty one never, and the scan of flags reports nothing else. A name that so
many commands of a map have is reported once less, for the commands at the top and for those below a
path. A flag with a new name adds no report on names, and none at all if its shorthand is new too or
it has none; a command with a new name adds its own problems only. -/
theorem repetitions_reported (path : String) :
    (∀ flags : List FlagDecl,
      (∀ name, (reuseProblems path [] [] flags).count (.duplicateFlagName path name) =
        ((flags.map FlagDecl.name).filter (· ≠ "")).count name - 1) ∧
      (∀ shorthand, (reuseProblems path [] [] flags).count (.duplicateShorthand path shorthand) =
        ((flags.map FlagDecl.shorthand).filter (· ≠ "")).count shorthand - 1) ∧
      ∀ problem ∈ reuseProblems path [] [] flags,
        (∃ name, problem = .duplicateFlagName path name) ∨
          ∃ shorthand, problem = .duplicateShorthand path shorthand) ∧
    (∀ (commands : List (String × CommandDecl)) (name : String),
      (siblingProblems .duplicateRootCommand id [] commands).count (.duplicateRootCommand name) =
        (siblingNames commands).count name - 1 ∧
      (siblingProblems (.duplicateSubcommand path) (fun key => path ++ "/" ++ key) []
        commands).count (.duplicateSubcommand path name) =
        (siblingNames commands).count name - 1) ∧
    (∀ (before after : List FlagDecl) (flag : FlagDecl),
      flag.name ∉ (before ++ after).map FlagDecl.name →
        (∀ name, (reuseProblems path [] [] (before ++ flag :: after)).count
            (.duplicateFlagName path name) =
          (reuseProblems path [] [] (before ++ after)).count (.duplicateFlagName path name)) ∧
        (flag.shorthand = "" ∨ flag.shorthand ∉ (before ++ after).map FlagDecl.shorthand →
          (reuseProblems path [] [] (before ++ flag :: after)).Perm
            (reuseProblems path [] [] (before ++ after)))) ∧
    ∀ (before after : List (String × CommandDecl)) (key : String) (child : CommandDecl),
      child.nameOr key ∉ siblingNames (before ++ after) →
        (siblingProblems .duplicateRootCommand id [] (before ++ (key, child) :: after)).Perm
          (child.problems key ++ siblingProblems .duplicateRootCommand id [] (before ++ after)) ∧
        (siblingProblems (.duplicateSubcommand path) (fun key => path ++ "/" ++ key) []
            (before ++ (key, child) :: after)).Perm
          (child.problems (path ++ "/" ++ key) ++
            siblingProblems (.duplicateSubcommand path) (fun key => path ++ "/" ++ key) []
              (before ++ after)) := by
  refine ⟨fun flags => ⟨count_duplicateFlagName path flags, count_duplicateShorthand path flags,
    fun problem => duplicate_of_mem_reuseProblems path flags⟩, fun commands name => ⟨?_, ?_⟩,
    fun before after flag name => ⟨count_duplicateFlagName_of_fresh name,
      reuseProblems_perm_of_fresh name⟩, fun before after key child fresh =>
    ⟨siblingProblems_perm_of_fresh fresh, siblingProblems_perm_of_fresh fresh⟩⟩
  · exact count_clash (fun _ _ => Problem.duplicateRootCommand.inj) duplicateRootCommand_notMem
      commands name
  · exact count_clash (fun _ _ same => (Problem.duplicateSubcommand.inj same).2)
      (duplicateSubcommand_notMem path) commands name

/-- Flags of which two share a name and two a shorthand. -/
def loftFlags : List FlagDecl := [
  { name := "all", shorthand := "a", kind := "bool", usage := "Show all" },
  { name := "any", shorthand := "a", kind := "bool", usage := "Show any" },
  { name := "all", kind := "bool", usage := "Show all" }]

/-- Commands of which three share a name, one of them by its key. -/
def loftCommands : List (String × CommandDecl) := [
  ("add", { useLine := " ", summary := "Add a box" }),
  ("box", { useLine := "add <box>", summary := "Add a box" }),
  ("crate", { useLine := "add <crate>", summary := "Add a crate" })]

/-- A pair yields one report and three commands yield two; what is new adds none. -/
theorem repetitions_reported_loft :
    (reuseProblems "loft" [] [] loftFlags).count (.duplicateFlagName "loft" "all") = 1 ∧
    (reuseProblems "loft" [] [] loftFlags).count (.duplicateShorthand "loft" "a") = 1 ∧
    (siblingProblems (.duplicateSubcommand "loft") (fun key => "loft" ++ "/" ++ key) []
      loftCommands).count (.duplicateSubcommand "loft" "add") = 2 ∧
    ("quiet" ∉ (loftFlags ++ []).map FlagDecl.name ∧
      (reuseProblems "loft" [] [] (loftFlags ++ [{ name := "quiet" }])).Perm
        (reuseProblems "loft" [] [] (loftFlags ++ []))) ∧
    "sweep" ∉ siblingNames (loftCommands ++ []) ∧
      (siblingProblems .duplicateRootCommand id [] (loftCommands ++ [("sweep", default)])).Perm
        (CommandDecl.problems "sweep" default ++
          siblingProblems .duplicateRootCommand id [] (loftCommands ++ [])) := by
  obtain ⟨flags, commands, newFlag, newCommand⟩ := repetitions_reported "loft"
  have quiet : "quiet" ∉ (loftFlags ++ []).map FlagDecl.name := by decide
  have names : siblingNames loftCommands = ["add", "add", "add"] := by rfl
  have sweep : "sweep" ∉ siblingNames (loftCommands ++ []) := by
    rw [List.append_nil, names]
    decide
  refine ⟨?_, ?_, ?_, ⟨quiet, ?_⟩, sweep, ?_⟩
  · rw [(flags loftFlags).1]
    decide
  · rw [(flags loftFlags).2.1]
    decide
  · rw [(commands loftCommands "add").2, names]
    decide
  · exact (newFlag loftFlags [] { name := "quiet" } quiet).2 (.inl rfl)
  · exact (newCommand loftCommands [] "sweep" default sweep).1

end ToolTree
