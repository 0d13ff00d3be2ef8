import Mathlib.Data.List.Nodup
import ToolTree.Proofs.Alike

/-!
Keys of commands.

A command is kept under a key, but it is called by the name that its use line gives; the key is its
name only where the use line is blank. `ToolDecl.Rekeyed` renames all other keys, which permutes
commands that stand side by side. The permutation is lost on both sides of a built tree: nodes are
kept in the order of their names, and the words that select a grammar are distinct. So neither the
tree nor the run of a line tells keys apart (`keys_unobserved`).
-/

namespace ToolTree

open CommandLine (Argument Chain Grammar Level View)

/-! ### Renamed keys -/

mutual

/-- Two commands that differ in keys: the commands right below one are those below the other, each
under a key of its own, up to order and to keys further below. -/
inductive CommandDecl.Rekeyed : CommandDecl → CommandDecl → Prop where
  | mk {fields : CommandFields} {commands renamed commands' : List (String × CommandDecl)} :
      List.Forall₂ RekeyedEntry commands renamed → renamed.Perm commands' →
      CommandDecl.Rekeyed ⟨fields, commands⟩ ⟨fields, commands'⟩

/-- A command under another key. A command whose use line gives no name keeps its key. -/
inductive RekeyedEntry : String × CommandDecl → String × CommandDecl → Prop where
  | mk {key key' : String} {child child' : CommandDecl} :
      (UseLine.name child.useLine = "" → key = key') → CommandDecl.Rekeyed child child' →
      RekeyedEntry (key, child) (key', child')

end

/-- Two tools that differ in the keys of their commands. -/
structure ToolDecl.Rekeyed (tool tool' : ToolDecl) : Prop where
  name : tool.name = tool'.name
  description : tool.description = tool'.description
  version : tool.version = tool'.version
  root : tool.root = tool'.root
  commands : tool.tree.Rekeyed tool'.tree

theorem CommandDecl.Rekeyed.toCommandFields {c c' : CommandDecl} (h : c.Rekeyed c') :
    c.toCommandFields = c'.toCommandFields := by
  cases h
  rfl

theorem RekeyedEntry.rekeyed {entry entry' : String × CommandDecl} (h : RekeyedEntry entry entry') :
    entry.2.Rekeyed entry'.2 := by
  cases h with
  | mk _ rekeyed => exact rekeyed

/-- The name of a command survives. -/
theorem RekeyedEntry.nameOr {entry entry' : String × CommandDecl}
    (h : RekeyedEntry entry entry') : entry.2.nameOr entry.1 = entry'.2.nameOr entry'.1 := by
  cases h with
  | @mk key key' child child' kept rekeyed =>
    simp only [← rekeyed.toCommandFields, CommandFields.nameOr]
    split
    · next blank => exact kept blank
    · rfl

namespace CommandDecl.Rekeyed

theorem symm {c c' : CommandDecl} (h : c.Rekeyed c') : c'.Rekeyed c := by
  induction c using CommandDecl.induction generalizing c' with
  | step fields commands ih =>
    cases h with
    | @mk _ _ renamed commands' entries perm =>
      have back : List.Forall₂ RekeyedEntry renamed commands := by
        clear perm
        induction entries with
        | nil => exact .nil
        | cons entry _ ihRest =>
          obtain ⟨first, rest⟩ := List.forall_mem_cons.mp ih
          refine .cons ?_ (ihRest rest)
          cases entry with
          | mk kept rekeyed =>
            refine .mk (fun blank => (kept ?_).symm) (first rekeyed)
            rw [rekeyed.toCommandFields]
            exact blank
      obtain ⟨kept, entries', perm'⟩ := List.perm_comp_forall₂ perm.symm back
      exact .mk entries' perm'

variable {c c' : CommandDecl} (h : c.Rekeyed c')
include h

theorem entry {entry : String × CommandDecl} (mem : entry ∈ c.commands) :
    ∃ entry' ∈ c'.commands, RekeyedEntry entry entry' := by
  cases h with
  | mk entries perm =>
    obtain ⟨entry', mem', rekeyed⟩ := (exists_mem_of_forall₂ entries).1 entry mem
    exact ⟨entry', perm.subset mem', rekeyed⟩

/-- Names lead to the same commands. -/
theorem leads {above : List CommandFields} {names : List String} {d : CommandDecl}
    (leads : c.Leads above names d) : ∃ d', c'.Leads above names d' ∧ d.Rekeyed d' := by
  induction leads generalizing c' with
  | here => exact ⟨c', .here c', h⟩
  | @down c key child above names d entry _ ih =>
    obtain ⟨⟨key', child'⟩, mem, rekeyed⟩ := h.entry entry
    obtain ⟨d', further, same⟩ := ih rekeyed.rekeyed
    have named : child.nameOr key = child'.nameOr key' := rekeyed.nameOr
    rw [h.toCommandFields, named]
    exact ⟨d', .down mem further, same⟩

theorem siblingNames_perm : (siblingNames c.commands).Perm (siblingNames c'.commands) := by
  cases h with
  | mk entries perm =>
    have same := map_eq_of_forall₂ entries fun _ _ _ rekeyed => rekeyed.nameOr
    rw [siblingNames, siblingNames, same]
    exact perm.map _

theorem siblingAliases_perm : (siblingAliases c.commands).Perm (siblingAliases c'.commands) := by
  cases h with
  | mk entries perm =>
    have same := map_eq_of_forall₂ (f := fun entry => entry.2.aliases)
      (g := fun entry => entry.2.aliases) entries fun _ _ _ rekeyed =>
        congrArg CommandFields.aliases rekeyed.rekeyed.toCommandFields
    rw [siblingAliases, siblingAliases, List.flatMap_def, same, ← List.flatMap_def]
    exact perm.flatMap_right _

/-- What a command needs to be built is the same under all keys. -/
theorem fits {registry : Registry} {above : List CommandFields} (fits : c.Fits registry above) :
    c'.Fits registry above where
  flags := h.toCommandFields ▸ fits.flags
  handler := by
    rw [← h.toCommandFields]
    exact fits.handler
  aliases := h.siblingAliases_perm.nodup_iff.mp fits.aliases
  aliasesFree := by
    intro word taken named
    exact fits.aliasesFree word (h.siblingAliases_perm.symm.subset taken)
      (h.siblingNames_perm.symm.subset named)

end CommandDecl.Rekeyed

/-- A valid tool is built when it is built under other keys. -/
theorem ToolDecl.Rekeyed.isOk_build {tool tool' : ToolDecl} (h : tool.Rekeyed tool')
    (wf : tool'.WellFormed) {registry : Registry}
    (built : ∃ tree, (tool.build registry).result = .ok tree) :
    ∃ tree, (tool'.build registry).result = .ok tree := by
  refine isOk_build_iff.mpr ⟨wf, fun above names c' leads => ?_⟩
  obtain ⟨c, leads, rekeyed⟩ := h.commands.symm.leads leads
  exact rekeyed.symm.fits ((isOk_build_iff.mp built).2 above names c leads)

/-! ### Built commands -/

/-- Two grammars that differ in the order of the commands below. -/
inductive CommandLine.Grammar.Permuted : Grammar → Grammar → Prop where
  | mk {head : CommandLine.Head} {commands middle commands' : List Grammar} :
      List.Forall₂ Permuted commands middle → middle.Perm commands' →
      Permuted ⟨head, commands⟩ ⟨head, commands'⟩

theorem CommandLine.Grammar.Permuted.toHead {grammar grammar' : Grammar}
    (h : grammar.Permuted grammar') : grammar.toHead = grammar'.toHead := by
  cases h
  rfl

theorem CommandLine.Grammar.Permuted.commands {grammar grammar' : Grammar}
    (h : grammar.Permuted grammar') : ∃ middle,
      List.Forall₂ Permuted grammar.subcommands middle ∧ middle.Perm grammar'.subcommands := by
  cases h with
  | mk all perm => exact ⟨_, all, perm⟩

/-- The nodes of commands that stand side by side do not depend on the order of the commands. -/
theorem assembled_eq_of_perm {below below' : List (Grammar × Node)}
    (distinct : (below.map fun built => built.1.name).Nodup)
    (perm : (below.map fun built => (built.1.name, built.2)).Perm
      (below'.map fun built => (built.1.name, built.2))) :
    below.foldl (fun acc (grammar, node) => Keyed.insert grammar.name node acc) [] =
      below'.foldl (fun acc (grammar, node) => Keyed.insert grammar.name node acc) [] := by
  have distinct' : (below'.map fun built => built.1.name).Nodup := by
    have names := perm.map Prod.fst
    rw [List.map_map, List.map_map] at names
    exact names.nodup_iff.mp distinct
  have fresh : ∀ built : Grammar × Node, built.1.name ∉ Keyed.keys ([] : List (String × Node)) := by
    simp [Keyed.keys]
  have left := perm_assembled distinct fun built _ => fresh built
  have right := perm_assembled distinct' fun built _ => fresh built
  rw [List.append_nil] at left right
  have empty : Keyed.Sorted ([] : List (String × Node)) := List.Pairwise.nil
  exact (sorted_assembled empty).eq_of_perm (sorted_assembled empty)
    ((left.trans perm).trans right.symm)

section Build

variable {registry : Registry} {inherited : Scope} {name path : String} {version? : Option String}
  {c c' : CommandDecl}

/-- A command but for those below it is built the same under all keys. -/
theorem CommandDecl.Rekeyed.own_eq (h : c.Rekeyed c') {own own' : Built}
    (ok : (buildOwn registry c.toCommandFields name path inherited version? c.commands).result =
      .ok own)
    (ok' : (buildOwn registry c'.toCommandFields name path inherited version? c'.commands).result =
      .ok own') : own = own' := by
  rw [← h.toCommandFields] at ok'
  obtain ⟨arity, resolved, flags, taken, binding?, bound, -, rfl⟩ := buildOwn_eq_ok_iff.mp ok
  obtain ⟨arity', resolved', flags', taken', binding?', bound', -, rfl⟩ :=
    buildOwn_eq_ok_iff.mp ok'
  rw [resolved] at resolved'
  cases resolved'
  rw [taken] at taken'
  cases taken'
  rw [bound] at bound'
  cases bound'
  have words := (h.siblingNames_perm.append h.siblingAliases_perm).contains_eq
    (a := CommandLine.helpName)
  simp only [ownParts, words]

/-- Under other keys a command is built to the same node and to the same grammar up to order. -/
theorem CommandDecl.Rekeyed.built_alike (h : c.Rekeyed c') (wf : c.WellFormed)
    (wf' : c'.WellFormed) {built built' : Grammar × Node}
    (ok : buildNode registry inherited name path version? c = .ok built)
    (ok' : buildNode registry inherited name path version? c' = .ok built') :
    built.2 = built'.2 ∧ built.1.Permuted built'.1 := by
  induction c using CommandDecl.induction generalizing inherited name path version? c' built built'
    with
  | step fields commands ih =>
    obtain ⟨own, owned, below, all, rfl⟩ := buildNode_eq_ok_iff.mp ok
    obtain ⟨own', owned', below', all', rfl⟩ := buildNode_eq_ok_iff.mp ok'
    have same := h.own_eq owned owned'
    subst same
    rw [buildBelow_eq_ok_iff] at all all'
    obtain ⟨⟨-, distinct⟩, wfBelow⟩ := CommandDecl.wellFormed_iff.mp wf
    cases h with
    | @mk _ _ renamed commands' entries perm =>
      obtain ⟨-, wfBelow'⟩ := CommandDecl.wellFormed_iff.mp wf'
      -- What is built on the other side, in the order of this one.
      obtain ⟨middle, allMiddle, permBelow⟩ := List.perm_comp_forall₂ perm all'
      have twins : List.Forall₂ (fun one other : Grammar × Node =>
          (one.1.name, one.2) = (other.1.name, other.2) ∧ one.1.Permuted other.1) below middle := by
        refine forall₂_of_steps entries all allMiddle ?_
        rintro ⟨key, child⟩ mem ⟨key', child'⟩ mem' rekeyed one other ok ok'
        rw [BuildsBelow] at ok ok'
        rw [← rekeyed.nameOr] at ok'
        obtain ⟨node, grammar⟩ := ih (key, child) mem rekeyed.rekeyed (wfBelow key child mem)
          (wfBelow' key' child' (perm.subset mem')) ok ok'
        refine ⟨?_, grammar⟩
        rw [node, (name_of_buildNode ok).1, (name_of_buildNode ok').1]
      have nodes := map_eq_of_forall₂ (f := fun built : Grammar × Node => (built.1.name, built.2))
        (g := fun built : Grammar × Node => (built.1.name, built.2)) twins
        fun _ _ _ twin => twin.1
      have names : (below.map fun built => built.1.name).Nodup := by
        rw [names_of_buildsBelow all]
        exact distinct
      constructor
      · refine congrArg (Node.mk own.node) (assembled_eq_of_perm names ?_)
        rw [nodes]
        exact permBelow.map _
      · refine .mk ?_ (permBelow.map Prod.fst)
        rw [List.forall₂_map_left_iff, List.forall₂_map_right_iff]
        exact twins.imp fun _ _ twin => twin.2

end Build

/-! ### Views -/

namespace CommandLine

/-- Two views that differ in the order of the commands below. -/
structure View.Permuted (view view' : View) : Prop where
  grammar : view.grammar.Permuted view'.grammar
  arguments : view.arguments = view'.arguments
  helpAllowed : view.helpAllowed = view'.helpAllowed

namespace View.Permuted

variable {view view' : View} (h : view.Permuted view')
include h

theorem child {grammar grammar' : Grammar} (below : grammar.Permuted grammar') :
    (view.child grammar).Permuted (view'.child grammar') where
  grammar := below
  arguments := by
    simp only [View.child, View.inherited, h.arguments, below.toHead]
  helpAllowed := by
    simp only [View.child, h.helpAllowed, below.toHead]

theorem hasHelpCommand : view.hasHelpCommand = view'.hasHelpCommand := by
  obtain ⟨middle, all, perm⟩ := h.grammar.commands
  exact View.hasHelpCommand_congr h.helpAllowed (all.length_eq.trans perm.length_eq)

theorem showsCommands : view.showsCommands = view'.showsCommands := by
  obtain ⟨middle, all, perm⟩ := h.grammar.commands
  rw [View.showsCommands, View.showsCommands, ← perm.any_eq, Bool.eq_iff_iff, List.any_eq_true,
    List.any_eq_true]
  constructor
  · rintro ⟨child, mem, shown⟩
    obtain ⟨other, mem, permuted⟩ := (exists_mem_of_forall₂ all).1 child mem
    exact ⟨other, mem, permuted.toHead ▸ shown⟩
  · rintro ⟨other, mem, shown⟩
    obtain ⟨child, mem, permuted⟩ := (exists_mem_of_forall₂ all).2 other mem
    exact ⟨child, mem, permuted.toHead ▸ shown⟩

/-- Where the words for the commands below are distinct, a word selects the same on both sides. -/
theorem subcommand?
    (distinct : (view.grammar.subcommands.flatMap fun child => child.name :: child.aliases).Nodup)
    (word : String) :
    Option.Rel Grammar.Permuted (view.grammar.subcommand? word)
      (view'.grammar.subcommand? word) := by
  obtain ⟨middle, all, perm⟩ := h.grammar.commands
  have words : view.grammar.subcommands.flatMap (fun child => child.name :: child.aliases) =
      middle.flatMap fun child => child.name :: child.aliases := by
    rw [List.flatMap_def, List.flatMap_def]
    refine congrArg _ (map_eq_of_forall₂ all fun child _ other permuted => ?_)
    rw [permuted.toHead]
  rw [words] at distinct
  have reordered : middle.find? (fun child => child.isCalled word) =
      view'.grammar.subcommands.find? fun child => child.isCalled word :=
    find?_eq_of_perm perm fun child mem other mem' => Grammar.eq_of_isCalled distinct mem mem'
  rw [Grammar.subcommand?, Grammar.subcommand?, ← reordered]
  refine find?_forall₂ all fun child other permuted => ?_
  rw [Grammar.isCalled, Grammar.isCalled, permuted.toHead]

/-- What is told of the usage of a command does not depend on the order of those below it. -/
theorem advice (path : String) : view.advice path = view'.advice path := by
  simp only [View.advice, View.titledUsage, View.usage, View.usageWords, View.requiredTexts,
    View.helpHint?, h.arguments, h.showsCommands, h.hasHelpCommand, h.grammar.toHead]

end View.Permuted

/-- What a path shows of a view. -/
def View.signpost (view : View) : String × List String :=
  (view.grammar.name, view.requiredTexts)

theorem View.Permuted.signpost {view view' : View} (h : view.Permuted view') :
    view.signpost = view'.signpost := by
  rw [View.signpost, View.signpost, View.requiredTexts, View.requiredTexts, h.grammar.toHead,
    h.arguments]

theorem usagePath_congr {file? : Option String} {root root' : View} {below below' : List View}
    (top : root.signpost = root'.signpost)
    (rest : below.map View.signpost = below'.map View.signpost) :
    usagePath file? root below = usagePath file? root' below' := by
  rcases below.eq_nil_or_concat' with rfl | ⟨between, leaf, rfl⟩
  · rw [List.map_nil, eq_comm, List.map_eq_nil_iff] at rest
    subst rest
    have name : root.grammar.name = root'.grammar.name := congrArg Prod.fst top
    simp only [usagePath, List.getLast?_nil, name]
  · rcases below'.eq_nil_or_concat' with rfl | ⟨between', leaf', rfl⟩
    · simp at rest
    · rw [List.map_append, List.map_append] at rest
      obtain ⟨betweens, leaves⟩ := List.append_inj' rest rfl
      have name : leaf.grammar.name = leaf'.grammar.name :=
        congrArg Prod.fst (List.cons.inj leaves).1
      have names : between.map (·.grammar.name) = between'.map (·.grammar.name) := by
        have firsts := congrArg (List.map Prod.fst) betweens
        rwa [List.map_map, List.map_map] at firsts
      have parents : (root :: between).map View.signpost =
          (root' :: between').map View.signpost := by
        rw [List.map_cons, List.map_cons, top, betweens]
      have parent : ((root :: between).getLast (List.cons_ne_nil _ _)).requiredTexts =
          ((root' :: between').getLast (List.cons_ne_nil _ _)).requiredTexts := by
        have last := congrArg (fun signs => signs.getLast?.map Prod.snd) parents
        simp only [List.getLast?_map, List.getLast?_eq_some_getLast (List.cons_ne_nil _ _),
          Option.map_some, Option.some.injEq] at last
        exact last
      simp only [usagePath, List.getLast?_concat, List.dropLast_concat, name, names, parent]

/-- Two views of built trees that differ in the order of the commands below. -/
def View.Reordered (view view' : View) : Prop :=
  view.Permuted view' ∧ ∃ registry above path c node, Stands registry above path c view node

/-- Reading does not depend on the order of the commands below. -/
theorem View.simulation_reordered : View.Simulation View.Reordered where
  reads := by
    rintro view view' ⟨permuted, -⟩
    have head := permuted.grammar.toHead
    exact {
      name := congrArg Head.name head
      version? := congrArg Head.version? head
      arguments := congrArg (List.map Argument.bare) permuted.arguments
      hasHelpCommand := permuted.hasHelpCommand }
  step := by
    rintro view view' ⟨permuted, registry, above, path, c, node, stands⟩ word
    have selected := permuted.subcommand? stands.words_nodup word
    generalize view'.grammar.subcommand? word = found' at selected ⊢
    cases found : view.grammar.subcommand? word with
    | none =>
      rw [found] at selected
      cases selected
      exact .none
    | some grammar =>
      rw [found] at selected
      cases selected with
      | some below =>
        obtain ⟨entry, -, -, child, -, stands⟩ :=
          stands.entry_of_command (List.mem_of_find?_eq_some found)
        exact .some ⟨permuted.child below, registry, _, _, _, child, stands⟩

/-- The advice of chains that differ in the order of commands is the same. -/
theorem Chain.Alike.advice_eq {chain chain' : Chain}
    (alike : Chain.Alike (Level.Alike View.Reordered) chain chain') (program? : Option String) :
    chain.advice program? = chain'.advice program? := by
  have signposts : (chain.levels.map (·.view)).map View.signpost =
      (chain'.levels.map (·.view)).map View.signpost := by
    rw [List.map_map, List.map_map]
    exact alike.map_levels fun _ _ levels => levels.view.1.signpost
  have path : chain.usagePath program? = chain'.usagePath program? := by
    rw [Chain.usagePath, Chain.usagePath]
    generalize chain.levels.map (·.view) = views at signposts
    generalize chain'.levels.map (·.view) = views' at signposts
    cases views with
    | nil =>
      rw [List.map_nil, eq_comm, List.map_eq_nil_iff] at signposts
      rw [signposts]
    | cons root below =>
      cases views' with
      | nil => simp at signposts
      | cons root' below' =>
        rw [List.map_cons, List.map_cons, List.cons.injEq] at signposts
        exact usagePath_congr signposts.1 signposts.2
  rw [Chain.advice, Chain.advice, path, alike.leaf.view.1.advice]

end CommandLine

/-! ### Built tools -/

theorem ToolDecl.Rekeyed.symm {tool tool' : ToolDecl} (h : tool.Rekeyed tool') :
    tool'.Rekeyed tool where
  name := h.name.symm
  description := h.description.symm
  version := h.version.symm
  root := h.root.symm
  commands := h.commands.symm

/-- Under other keys a tool is built to a tree with the same nodes and with reordered views. -/
theorem ToolDecl.Rekeyed.trees_alike {tool tool' : ToolDecl} (h : tool.Rekeyed tool')
    {registry : Registry} {tree tree' : Tree} (built : (tool.build registry).result = .ok tree)
    (built' : (tool'.build registry).result = .ok tree') :
    tree.root = tree'.root ∧
      CommandLine.View.Reordered (.ofRoot tree.grammar) (.ofRoot tree'.grammar) := by
  obtain ⟨wf, ok⟩ := build_eq_ok_iff.mp built
  obtain ⟨wf', ok'⟩ := build_eq_ok_iff.mp built'
  have name : tool'.rootName = tool.rootName := by
    rw [ToolDecl.rootName, ToolDecl.rootName, h.root, h.name]
  have version : tool'.version? = tool.version? := by
    rw [ToolDecl.version?, ToolDecl.version?, h.version]
  rw [name, version] at ok'
  obtain ⟨root, grammar⟩ := h.commands.built_alike wf.commands wf'.commands ok ok'
  have head := grammar.toHead
  refine ⟨root, ⟨grammar, ?_, ?_⟩, registry, _, _, _, _, stands_root built⟩
  · exact congrArg CommandLine.Head.arguments head
  · exact congrArg CommandLine.Head.helpCommand head

/-- Keys are not observed: of two valid tools that differ in the keys of their commands, one is
built exactly when the other is, to a tree with the same paths; and every line is answered alike,
with the same call and the same error, but for the text of a help. -/
theorem keys_unobserved {tool tool' : ToolDecl} (valid : tool.Valid) (valid' : tool'.Valid)
    (rekeyed : tool.Rekeyed tool') (registry : Registry) :
    ((∃ tree, (tool.build registry).result = .ok tree) ↔
      ∃ tree, (tool'.build registry).result = .ok tree) ∧
    ∀ tree tree', (tool.build registry).result = .ok tree →
      (tool'.build registry).result = .ok tree' →
      tree.paths = tree'.paths ∧
        ∀ argv, (tree.run argv).call? = (tree'.run argv).call? ∧
          (tree.run argv).result.map Outcome.withoutHelp =
            (tree'.run argv).result.map Outcome.withoutHelp := by
  have wf := ToolDecl.problems_eq_nil_iff.mp valid
  have wf' := ToolDecl.problems_eq_nil_iff.mp valid'
  refine ⟨⟨rekeyed.isOk_build wf', rekeyed.symm.isOk_build wf⟩, ?_⟩
  intro tree tree' built built'
  obtain ⟨root, reordered⟩ := rekeyed.trees_alike built built'
  refine ⟨by rw [Tree.paths, Tree.paths, root], fun argv => ?_⟩
  have same : (tree.run argv).erase id = (tree'.run argv).erase id :=
    Tree.erase_run_eq CommandLine.View.simulation_reordered root reordered
      (fun _ _ alike program? _ _ => by rw [alike.advice_eq program?]) argv
  have results := congrArg Run.result same
  simp only [Run.erase, mapError_id] at results
  exact ⟨(congrArg Run.call? same :), results⟩

/-- A command for a mill. -/
def grindCommand : CommandDecl where
  useLine := "grind <corn>"
  aliases := ["g"]
  summary := "Grind corn"
  handler := "grind"

/-- A command without a function. -/
def siftCommand : CommandDecl where
  useLine := "sift"
  summary := "Sift flour"

/-- A command that is called by its key. -/
def sweepCommand : CommandDecl where
  useLine := " "
  summary := "Sweep the floor"

/-- A tool for a mill with some commands. -/
def millTool (commands : List (String × CommandDecl)) : ToolDecl where
  name := "mill"
  root := { useLine := "mill", summary := "Run a mill" }
  commands

/-- A function for `grind`. -/
def millRegistry : Registry :=
  .ofList [("grind", .handler fun _ _ => .ok ())]

theorem CommandDecl.Rekeyed.refl_of_childless (fields : CommandFields) :
    CommandDecl.Rekeyed ⟨fields, []⟩ ⟨fields, []⟩ :=
  .mk .nil (.refl [])

theorem keys_unobserved_mill :
    ∃ tree tree' call,
      ((millTool [("a", grindCommand), ("b", siftCommand), ("sweep", sweepCommand)]).build
        millRegistry).result = .ok tree ∧
      ((millTool [("m", siftCommand), ("n", grindCommand), ("sweep", sweepCommand)]).build
        millRegistry).result = .ok tree' ∧
      tree.paths = tree'.paths ∧
      (tree.run ["mill", "g", "rye"]).call? = some call ∧
      (tree'.run ["mill", "g", "rye"]).call? = some call ∧ call.words = ["rye"] := by
  have rekeyed :
      (millTool [("a", grindCommand), ("b", siftCommand), ("sweep", sweepCommand)]).Rekeyed
        (millTool [("m", siftCommand), ("n", grindCommand), ("sweep", sweepCommand)]) := by
    have entries : List.Forall₂ RekeyedEntry
        [("a", grindCommand), ("b", siftCommand), ("sweep", sweepCommand)]
        [("n", grindCommand), ("m", siftCommand), ("sweep", sweepCommand)] := by
      refine .cons (.mk (fun blank => ?_) (.refl_of_childless _))
        (.cons (.mk (fun blank => ?_) (.refl_of_childless _))
          (.cons (.mk (fun _ => rfl) (.refl_of_childless _)) .nil))
      · exact absurd blank (by decide)
      · exact absurd blank (by decide)
    exact ⟨rfl, rfl, rfl, rfl, .mk entries (.swap _ _ _)⟩
  have answered : ((millTool
      [("a", grindCommand), ("b", siftCommand), ("sweep", sweepCommand)]).build
        millRegistry).result.map (fun tree =>
          (tree.run ["mill", "g", "rye"]).call?.map fun call => call.words) =
      .ok (some ["rye"]) := by rfl
  obtain ⟨same, alike⟩ := keys_unobserved (by decide) (by decide) rekeyed millRegistry
  obtain ⟨tree, built, answered⟩ := map_eq_ok_iff.mp answered
  obtain ⟨call, called, words⟩ := Option.map_eq_some_iff.mp answered
  obtain ⟨tree', built'⟩ := same.mp ⟨tree, built⟩
  obtain ⟨paths, runs⟩ := alike tree tree' built built'
  exact ⟨tree, tree', call, built, built', paths, called, (runs _).1.symm.trans called, words⟩

end ToolTree
