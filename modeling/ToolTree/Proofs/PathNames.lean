import Mathlib.Data.List.DropRight
import ToolTree.Proofs.Requests
import ToolTree.Proofs.Shape

/-!
Paths as the names of commands.

A path is made of names with a space before each but the first, and a function that is called is
told, as the name of its command, what follows the last space. A name that comes from a use line
holds no blank, so both ways agree on it. But a command whose use line is blank goes by its key, and
a key may hold spaces: then the name that is told is cut short, and two commands may share a path
(`path_shared_of_desk`). `paths_identify` says that nothing else can go wrong.
-/

namespace ToolTree

open CommandLine (Chain)

/-! ### Spaces in paths -/

/-- What follows the last space of a text. -/
def afterLastSpace (s : String) : String :=
  String.ofList (s.toList.rtakeWhile (· != ' '))

theorem Invocation.commandName_eq (call : Invocation) :
    call.commandName = afterLastSpace call.path :=
  rfl

theorem afterLastSpace_eq_self_iff {s : String} : afterLastSpace s = s ↔ ' ' ∉ s.toList := by
  rw [afterLastSpace, ← String.toList_inj, String.toList_ofList, List.rtakeWhile_eq_self_iff]
  constructor
  · intro each mem
    simpa using each ' ' mem
  · intro free c mem
    rw [bne_iff_ne]
    rintro rfl
    exact free mem

theorem afterLastSpace_childPath (parent name : String) :
    afterLastSpace (childPath parent name) = afterLastSpace name := by
  have spelled : (childPath parent name).toList.reverse =
      name.toList.reverse ++ ' ' :: parent.toList.reverse := by
    simp [childPath]
  rw [afterLastSpace, afterLastSpace, List.rtakeWhile, spelled, List.takeWhile_append]
  split
  · next all =>
    rw [List.takeWhile_cons_of_neg (by simp), List.append_nil, List.rtakeWhile,
      (List.takeWhile_prefix _).eq_of_length all]
  · rfl

/-- Only the last name of a path counts. -/
theorem afterLastSpace_pathFrom (path : String) (names : List String) :
    afterLastSpace (pathFrom path names) = afterLastSpace (names.getLastD path) := by
  induction names generalizing path with
  | nil => rfl
  | cons name rest ih =>
    rw [pathFrom, List.foldl_cons, ← pathFrom, ih, List.getLastD_cons]
    cases rest with
    | nil => exact afterLastSpace_childPath path name
    | cons next others => rfl

theorem toList_pathFrom (path : String) (names : List String) :
    (pathFrom path names).toList = path.toList ++ names.flatMap fun name => ' ' :: name.toList := by
  induction names generalizing path with
  | nil => simp [pathFrom]
  | cons name rest ih =>
    rw [pathFrom, List.foldl_cons, ← pathFrom, ih, List.flatMap_cons]
    simp [childPath]

/-- Names without spaces can be told from the path that they lead to. -/
theorem eq_of_pathFrom_eq {path : String} {names names' : List String}
    (free : ∀ name ∈ names, ' ' ∉ name.toList) (free' : ∀ name ∈ names', ' ' ∉ name.toList)
    (same : pathFrom path names = pathFrom path names') : names = names' := by
  rw [← String.toList_inj, toList_pathFrom, toList_pathFrom, List.append_cancel_left_eq] at same
  have cut := congrArg (Text.pieces (· == ' ')) same
  rw [Text.pieces_flatMap free, Text.pieces_flatMap free', List.cons.injEq] at cut
  exact List.map_injective_iff.mpr (fun _ _ => String.toList_injective) cut.2

/-! ### Spaces in names -/

/-- The name that a use line gives holds no space. -/
theorem UseLine.space_notMem_name (line : String) : ' ' ∉ (UseLine.name line).toList := by
  intro mem
  cases UseLine.name_not_blank line ' ' mem

namespace CommandDecl

/-- No key holds a space that stands for the name of its command, because the use line is blank. -/
def KeysSpaceless (c : CommandDecl) : Prop :=
  ∀ above names d, c.Leads above names d → ∀ key child, (key, child) ∈ d.commands →
    UseLine.name child.useLine = "" → ' ' ∉ key.toList

variable {c d : CommandDecl} {above : List CommandFields} {names : List String}

/-- The last of the names that lead to a command is its own. -/
theorem Leads.getLastD_eq (leads : c.Leads above names d) (key : String) :
    ∃ key', names.getLastD (c.nameOr key) = d.nameOr key' := by
  induction leads generalizing key with
  | here => exact ⟨key, rfl⟩
  | @down c own child above names d entry leads ih =>
    rw [List.getLastD_cons]
    exact ih own

theorem Leads.spaceless (leads : c.Leads above names d) (keys : c.KeysSpaceless) :
    ∀ name ∈ names, ' ' ∉ name.toList := by
  induction leads with
  | here => simp
  | @down c key child above names d entry leads ih =>
    refine List.forall_mem_cons.mpr ⟨?_, ih fun above' names' e below => ?_⟩
    · unfold CommandFields.nameOr
      dsimp only
      split
      · next blank => exact keys [] [] c (.here c) key child entry blank
      · exact UseLine.space_notMem_name child.useLine
    · exact keys _ _ e (.down entry below)

end CommandDecl

/-! ### Paths of a built tree -/

section Paths

variable {tool : ToolDecl} {registry : Registry} {tree : Tree}

theorem nodup_paths (built : (tool.build registry).result = .ok tree)
    (keys : tool.tree.KeysSpaceless) : tree.paths.Nodup := by
  have root := stands_root built
  have regular := root.regular
  have spaceless : ∀ names ∈ tree.root.routes, ∀ name ∈ names, ' ' ∉ name.toList := by
    intro names mem
    obtain ⟨above, c, leads⟩ := root.leads_iff.mp (regular.mem_routes_iff.mp mem)
    exact leads.spaceless keys
  rw [Tree.paths, regular.paths_eq_map]
  refine List.Nodup.map_on (fun names mem names' mem' same => ?_)
    (regular.routes_increasing.imp fun less => ?_)
  · exact eq_of_pathFrom_eq (spaceless names mem) (spaceless names' mem') same
  · rintro rfl
    exact List.lt_irrefl _ less

/-- What a called function is told as the name of its command is what follows the last space of the
canonical name. So it is the canonical name where that holds no space, and always when a use line
gives it. And the paths of a tree are distinct, unless a key with a space stands for a name. -/
theorem paths_identify (built : (tool.build registry).result = .ok tree) :
    (∀ argv call, (tree.run argv).call? = some call → ∃ chain above c,
      tree.grammar.parse argv = .ok chain ∧ tool.tree.Leads above chain.names c ∧
      call.invocation.path = pathFrom tool.rootName chain.names ∧
      call.invocation.commandName = afterLastSpace (chain.names.getLastD tool.rootName) ∧
      (call.invocation.commandName = chain.names.getLastD tool.rootName ↔
        ' ' ∉ (chain.names.getLastD tool.rootName).toList) ∧
      (UseLine.name c.useLine ≠ "" → call.invocation.commandName = UseLine.name c.useLine)) ∧
    (tool.tree.KeysSpaceless → tree.paths.Nodup) := by
  refine ⟨fun argv call called => ?_, nodup_paths built⟩
  obtain ⟨chain, node, binding, selects, rfl⟩ := Tree.selects_of_called called
  obtain ⟨above, c, descent⟩ := (selects.descent built).2
  have path : node.path = pathFrom tool.rootName chain.names := descent.stands.agrees.path_eq
  have told : (node.invocation chain).commandName =
      afterLastSpace (chain.names.getLastD tool.rootName) := by
    rw [Invocation.commandName_eq, NodeFields.invocation, path, afterLastSpace_pathFrom]
  refine ⟨chain, above, c, selects.read, descent.leads, path, told, ?_, fun named => ?_⟩
  · rw [told]
    exact afterLastSpace_eq_self_iff
  · obtain ⟨key, last⟩ := descent.leads.getLastD_eq tool.name
    have canonical : c.nameOr key = UseLine.name c.useLine := if_neg named
    rw [told, show tool.rootName = tool.tree.nameOr tool.name from rfl, last, canonical]
    exact afterLastSpace_eq_self_iff.mpr (UseLine.space_notMem_name c.useLine)

end Paths

/-- A tool with two commands whose use lines are blank, one of them under a key with a space. -/
def deskTool : ToolDecl where
  name := "desk"
  root := { useLine := "desk", summary := "Keep a desk" }
  commands := [
    ("file", {
      useLine := "file <paper>"
      summary := "File a paper"
      commands := [("now", { useLine := " ", summary := "File all papers" })] }),
    ("file now", { useLine := " ", summary := "File at once", handler := "file" })]

/-- A function for `file now`. -/
def deskRegistry : Registry :=
  .ofList [("file", .handler fun _ _ => .ok ())]

/-- The function is told what follows the space in the key of its command. -/
theorem paths_identify_desk :
    ∃ tree call, (deskTool.build deskRegistry).result = .ok tree ∧
      (tree.run ["desk", "file now"]).call? = some call ∧
      call.invocation.commandName = afterLastSpace "file now" := by
  have named : (deskTool.build deskRegistry).result.map (fun tree =>
      (tree.grammar.parse ["desk", "file now"]).map Chain.names) = .ok (.ok ["file now"]) := by rfl
  have called : (deskTool.build deskRegistry).result.map (fun tree =>
      (tree.run ["desk", "file now"]).call?.isSome) = .ok true := by rfl
  cases built : (deskTool.build deskRegistry).result with
  | error cause =>
    rw [built] at called
    cases called
  | ok tree =>
    rw [built] at named called
    obtain ⟨call, called⟩ := Option.isSome_iff_exists.mp (Except.ok.inj called)
    obtain ⟨calls, -⟩ := paths_identify built
    obtain ⟨chain, above, c, read, -, -, told, -⟩ := calls _ _ called
    have names : chain.names = ["file now"] := by
      have named : (tree.grammar.parse ["desk", "file now"]).map Chain.names = .ok ["file now"] :=
        Except.ok.inj named
      rw [read] at named
      exact Except.ok.inj named
    rw [names] at told
    exact ⟨tree, call, rfl, called, told⟩

/-- What is told is not the name of the command, and its path is that of another. -/
theorem path_shared_of_desk :
    ∃ tree call, (deskTool.build deskRegistry).result = .ok tree ∧
      tree.paths = ["desk", "desk file", "desk file now", "desk file now"] ∧
      (tree.run ["desk", "file now"]).call? = some call ∧
      (tree.grammar.parse ["desk", "file now"]).map Chain.names = .ok ["file now"] ∧
      call.invocation.commandName = "now" := by
  have computed : (deskTool.build deskRegistry).result.map (fun tree =>
      (tree.paths, (tree.grammar.parse ["desk", "file now"]).map Chain.names,
        (tree.run ["desk", "file now"]).call?.map fun call => call.invocation.commandName)) =
      .ok (["desk", "desk file", "desk file now", "desk file now"], .ok ["file now"],
        some "now") := by rfl
  cases built : (deskTool.build deskRegistry).result with
  | error cause =>
    rw [built] at computed
    cases computed
  | ok tree =>
    rw [built] at computed
    obtain ⟨paths, rest⟩ := Prod.mk.inj (Except.ok.inj computed)
    obtain ⟨named, told⟩ := Prod.mk.inj rest
    obtain ⟨call, called, told⟩ := Option.map_eq_some_iff.mp told
    exact ⟨tree, call, rfl, paths, called, named, told⟩

end ToolTree
