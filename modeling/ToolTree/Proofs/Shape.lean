import Mathlib.Algebra.BigOperators.Group.List.Basic
import Mathlib.Algebra.GroupWithZero.Nat
import ToolTree.Proofs.Descent

/-!
The shape of a built tree.

The grammars that lines are read against and the nodes that say what is done are two trees, built
side by side. Both have the shape of the declaration: the same names lead somewhere in all three,
and right below each command stand exactly the declared ones, none lost and none added
(`CommandDecl.Shapes`). So the paths of a tree can be told from the declaration, in number and in
order, and whatever a line selects on one side is found on the other.
-/

namespace ToolTree

open CommandLine (Grammar View)

/-! ### The listing of a node -/

namespace Node

theorem pathsOf_eq_flatMap (children : List (String × Node)) :
    pathsOf children = children.flatMap fun entry => entry.2.paths := by
  induction children with
  | nil => rfl
  | cons entry rest ih => rw [pathsOf, ih, List.flatMap_cons]

theorem countAll_eq_sum (children : List (String × Node)) :
    countAll children = (children.map fun entry => entry.2.count).sum := by
  induction children with
  | nil => rfl
  | cons entry rest ih => rw [countAll, ih, List.map_cons, List.sum_cons]

mutual

/-- The names that lead to the commands in the tree of a node, in the order of `paths`. -/
def routes : Node → List (List String)
  | ⟨_, children⟩ => [] :: routesOf children

/-- The names that lead to the commands in the trees of a map of nodes. -/
def routesOf : List (String × Node) → List (List String)
  | [] => []
  | (name, node) :: rest => node.routes.map (name :: ·) ++ routesOf rest

end

theorem routesOf_eq_flatMap (children : List (String × Node)) :
    routesOf children = children.flatMap fun entry => entry.2.routes.map (entry.1 :: ·) := by
  induction children with
  | nil => rfl
  | cons entry rest ih => rw [routesOf, ih, List.flatMap_cons]

/-- A node at a path whose children are kept in the order of their names, each at the path that
its name leads to. -/
inductive Regular : String → Node → Prop where
  | mk {path : String} {node : Node} : node.path = path → Keyed.Sorted node.children →
      (∀ name child, (name, child) ∈ node.children → Regular (childPath path name) child) →
      Regular path node

theorem paths_eq (node : Node) : node.paths = node.path :: pathsOf node.children := by
  obtain ⟨fields, children⟩ := node
  rw [paths]

theorem routes_eq (node : Node) : node.routes = [] :: routesOf node.children := by
  obtain ⟨fields, children⟩ := node
  rw [routes]

theorem count_eq (node : Node) : node.count = 1 + countAll node.children := by
  obtain ⟨fields, children⟩ := node
  rw [count]

namespace Regular

variable {path : String} {node : Node}

theorem paths_eq_map (h : node.Regular path) : node.paths = node.routes.map (pathFrom path) := by
  induction h with
  | @mk path node at_ sorted _ ih =>
    rw [paths_eq, routes_eq, List.map_cons, at_, pathsOf_eq_flatMap, routesOf_eq_flatMap,
      List.map_flatMap]
    refine congrArg (path :: ·) (List.flatMap_congr fun entry mem => ?_)
    rw [ih entry.1 entry.2 mem, List.map_map]
    rfl

theorem length_paths (h : node.Regular path) : node.paths.length = node.count := by
  induction h with
  | @mk path node _ _ _ ih =>
    rw [paths_eq, List.length_cons, pathsOf_eq_flatMap, List.length_flatMap, count_eq,
      countAll_eq_sum, List.map_congr_left fun entry mem => ih entry.1 entry.2 mem, Nat.add_comm]

/-- A command is listed before those below it, and siblings with all below them in the order of
their names. -/
theorem routes_increasing (h : node.Regular path) : node.routes.Pairwise (· < ·) := by
  induction h with
  | @mk path node at_ sorted _ ih =>
    rw [routes_eq, routesOf_eq_flatMap, List.pairwise_cons, List.pairwise_flatMap]
    refine ⟨fun route mem => ?_, fun entry mem => ?_, ?_⟩
    · obtain ⟨entry, -, mem⟩ := List.mem_flatMap.mp mem
      obtain ⟨rest, -, rfl⟩ := List.mem_map.mp mem
      exact List.nil_lt_cons _ _
    · refine List.pairwise_map.mpr ((ih entry.1 entry.2 mem).imp fun less => ?_)
      exact List.cons_lt_cons_iff.mpr (.inr ⟨rfl, less⟩)
    · refine (List.pairwise_map.mp sorted).imp fun less route mem other mem' => ?_
      obtain ⟨rest, -, rfl⟩ := List.mem_map.mp mem
      obtain ⟨rest', -, rfl⟩ := List.mem_map.mp mem'
      exact List.cons_lt_cons_iff.mpr (.inl less)

/-- What is listed is what names lead to. -/
theorem mem_routes_iff (h : node.Regular path) {names : List String} :
    names ∈ node.routes ↔ (node.follow? names).isSome = true := by
  induction h generalizing names with
  | @mk path node at_ sorted _ ih =>
    rw [routes_eq, routesOf_eq_flatMap]
    cases names with
    | nil => simp [follow?]
    | cons name rest =>
      simp only [List.mem_cons, reduceCtorEq, false_or, List.mem_flatMap, List.mem_map,
        List.cons.injEq, follow?]
      constructor
      · rintro ⟨⟨_, child⟩, mem, _, listed, rfl, rfl⟩
        rw [(Keyed.find?_eq_some_iff_mem sorted.nodup).mpr mem]
        exact (ih _ child mem).mp listed
      · intro found
        cases child? : Keyed.find? name node.children with
        | none =>
          rw [child?] at found
          cases found
        | some child =>
          rw [child?] at found
          have mem := (Keyed.find?_eq_some_iff_mem sorted.nodup).mp child?
          exact ⟨(name, child), mem, rest, (ih name child mem).mpr found, rfl, rfl⟩

end Regular

end Node

/-! ### The nodes of a declaration -/

theorem CommandDecl.countAll_eq_sum (commands : List (String × CommandDecl)) :
    CommandDecl.countAll commands = (commands.map fun entry => entry.2.count).sum := by
  induction commands with
  | nil => rfl
  | cons entry rest ih => rw [countAll, ih, List.map_cons, List.sum_cons]

namespace Stands

variable {registry : Registry} {above : List CommandFields} {path : String} {c : CommandDecl}
  {view : View} {node : Node}

/-- A node below another stands for a declared command of its name. -/
theorem entry_of_child (h : Stands registry above path c view node) {name : String} {child : Node}
    (mem : (name, child) ∈ node.children) :
    ∃ key d grammar, (key, d) ∈ c.commands ∧ d.nameOr key = name ∧
      Stands registry (above ++ [c.toCommandFields]) (childPath path name) d (view.child grammar)
        child := by
  obtain ⟨below, -, perm, all⟩ := h.built_below
  obtain ⟨built, builtMem, same⟩ := List.mem_map.mp (perm.mem_iff.mp mem)
  obtain ⟨⟨key, d⟩, entry, ⟨named, -⟩, -, stands⟩ := (exists_mem_of_forall₂ all).2 built builtMem
  cases same
  exact ⟨key, d, built.1, entry, named.symm, stands⟩

theorem regular (h : Stands registry above path c view node) : node.Regular path := by
  induction c using CommandDecl.induction generalizing above path view node with
  | step fields commands ih =>
    refine .mk h.agrees.path_eq h.sorted_children fun name child mem => ?_
    obtain ⟨key, d, grammar, entry, -, stands⟩ := h.entry_of_child mem
    exact ih (key, d) entry stands

/-- Names lead to a node exactly when they lead to a declared command. -/
theorem leads_iff (h : Stands registry above path c view node) {names : List String} :
    (node.follow? names).isSome = true ↔ ∃ between d, c.Leads between names d := by
  constructor
  · intro found
    induction names generalizing above path c view node with
    | nil => exact ⟨[], c, .here c⟩
    | cons name rest ih =>
      rw [Node.follow?] at found
      cases child? : Keyed.find? name node.children with
      | none =>
        rw [child?] at found
        cases found
      | some child =>
        rw [child?] at found
        obtain ⟨key, d, grammar, entry, rfl, stands⟩ :=
          h.entry_of_child (h.find?_children_iff.mp child?)
        obtain ⟨between, e, leads⟩ := ih stands found
        exact ⟨_, e, .down entry leads⟩
  · rintro ⟨between, d, leads⟩
    obtain ⟨-, node', follows, -⟩ := h.follow leads
    rw [follows]
    rfl

/-- As many nodes are built as commands are declared. -/
theorem count_eq (h : Stands registry above path c view node) : node.count = c.count := by
  induction c using CommandDecl.induction generalizing above path view node with
  | step fields commands ih =>
    obtain ⟨below, -, perm, all⟩ := h.built_below
    have counts : commands.map (fun entry => entry.2.count) =
        below.map fun built => built.2.count :=
      map_eq_of_forall₂ all fun entry mem _ ⟨_, _, stands⟩ => (ih entry mem stands).symm
    rw [Node.count_eq, Node.countAll_eq_sum, CommandDecl.count, CommandDecl.countAll_eq_sum, counts,
      (perm.map fun entry => entry.2.count).sum_eq, List.map_map]
    rfl

/-- The view that names lead to is that of the command with the last of them. -/
theorem name_of_follow (h : Stands registry above path c view node) {between : List CommandFields}
    {names : List String} {d : CommandDecl} (leads : c.Leads between names d) {view' : View}
    (selects : view.follow? names = some view') :
    view'.grammar.name = names.getLastD view.grammar.name := by
  induction leads generalizing above path view node with
  | here =>
    cases selects
    rfl
  | @down c key child between names d entry leads ih =>
    obtain ⟨grammar, mem, ⟨named, -⟩, childNode, -, stands⟩ := h.command_of_entry entry
    rw [← named, View.follow?, h.subcommand?_name mem] at selects
    rw [List.getLastD_cons, ← named]
    exact ih stands selects

end Stands

/-! ### Both sides of a tree -/

/-- A declared command as both sides of a tree have it. Right below it stand exactly the declared
commands, each once: on one side in the declared order, on the other in the order of their names,
at the path of the command, a space and the name. -/
structure CommandDecl.Shapes (c : CommandDecl) (name path : String) (grammar : Grammar)
    (node : Node) : Prop where
  name : grammar.name = name
  path : node.path = path
  distinct : (siblingNames c.commands).Nodup
  grammars : grammar.subcommands.map (·.name) = siblingNames c.commands
  nodes : (Keyed.keys node.children).Perm (siblingNames c.commands)
  ordered : Keyed.Sorted node.children
  childPaths : ∀ name child, (name, child) ∈ node.children →
    child.path = node.path ++ " " ++ name

theorem Stands.shapes {registry : Registry} {above : List CommandFields} {path : String}
    {c : CommandDecl} {view : View} {node : Node} (h : Stands registry above path c view node) :
    c.Shapes view.grammar.name path view.grammar node := by
  obtain ⟨below, subcommands, perm, all⟩ := h.built_below
  have names : below.map (fun built => built.1.name) = siblingNames c.commands :=
    (map_eq_of_forall₂ all fun _ _ _ built => built.1.1.symm).symm
  refine ⟨rfl, h.agrees.path_eq, (h.wellFormed [] [] c (.here c)).2, ?_, ?_, h.sorted_children,
    fun name child mem => ?_⟩
  · rw [subcommands, List.map_map]
    exact names
  · rw [← names, Keyed.keys]
    simpa [Function.comp_def] using perm.map Prod.fst
  · obtain ⟨key, d, grammar, -, -, stands⟩ := h.entry_of_child mem
    rw [stands.agrees.path_eq, h.agrees.path_eq]
    rfl

/-- Both sides of a built tree have the shape of the declaration, so no command is lost and none
replaces another. The paths of the tree are those of the declared commands: as many, each command
before those below it, and siblings with all below them in the order of their names. Whatever a
line selects is found on both sides, at the end of its names. -/
theorem shapes_of_build {tool : ToolDecl} {registry : Registry} {tree : Tree}
    (built : (tool.build registry).result = .ok tree) :
    (∀ above names c, tool.tree.Leads above names c → ∃ view node,
      (View.ofRoot tree.grammar).follow? names = some view ∧
      tree.root.follow? names = some node ∧
      c.Shapes (names.getLastD tool.rootName) (pathFrom tool.rootName names) view.grammar node) ∧
    (∀ names, (tree.root.follow? names).isSome = true ↔
      ∃ above c, tool.tree.Leads above names c) ∧
    tree.paths.length = 1 + (tool.commands.map fun entry => entry.2.count).sum ∧
    (∃ routes : List (List String), tree.paths = routes.map (pathFrom tool.rootName) ∧
      routes.Pairwise (· < ·) ∧
      ∀ names, names ∈ routes ↔ ∃ above c, tool.tree.Leads above names c) ∧
    ∀ argv chain, tree.grammar.parse argv = .ok chain →
      (∃ node, tree.root.follow? chain.names = some node) ∧
      (View.ofRoot tree.grammar).follow? chain.names = some chain.leaf.view := by
  have root := stands_root built
  have rootName : (View.ofRoot tree.grammar).grammar.name = tool.rootName :=
    (name_of_buildNode (build_eq_ok_iff.mp built).2).1
  refine ⟨fun above names c leads => ?_, fun names => root.leads_iff, ?_, ?_,
    fun argv chain read => ?_⟩
  · obtain ⟨view, node, selects, follows, stands⟩ := root.follow_both leads
    have name := root.name_of_follow leads selects
    refine ⟨view, node, selects, follows, ?_⟩
    rw [rootName] at name
    rw [← name]
    exact stands.shapes
  · rw [Tree.paths, root.regular.length_paths, root.count_eq, ToolDecl.tree, CommandDecl.count,
      CommandDecl.countAll_eq_sum]
  · exact ⟨_, root.regular.paths_eq_map, root.regular.routes_increasing, fun names =>
      root.regular.mem_routes_iff.trans root.leads_iff⟩
  · obtain ⟨-, above, c, last, descent⟩ := descent_of_parse built read
    exact ⟨⟨last, descent.follows⟩, descent.selects⟩

/-- A tool whose commands stand under keys that are in another order than their names. -/
def gardenTool : ToolDecl where
  name := "garden"
  root := { useLine := "garden", summary := "Keep a garden" }
  commands := [
    ("a", {
      useLine := "water"
      summary := "Water plants"
      commands := [
        ("k", { useLine := "now", summary := "Water at once" }),
        ("l", { useLine := "daily", summary := "Water every day" })] }),
    ("b", { useLine := "plant <name>", aliases := ["sow"], summary := "Plant a plant" })]

theorem shapes_of_build_garden :
    ∃ tree, (gardenTool.build {}).result = .ok tree ∧
      tree.paths = ["garden", "garden plant", "garden water", "garden water daily",
        "garden water now"] ∧
      tree.paths.length = 1 + (gardenTool.commands.map fun entry => entry.2.count).sum ∧
      ∀ argv chain, tree.grammar.parse argv = .ok chain →
        ∃ node, tree.root.follow? chain.names = some node := by
  have listed : (gardenTool.build {}).result.map Tree.paths =
      .ok ["garden", "garden plant", "garden water", "garden water daily", "garden water now"] := by
    rfl
  cases built : (gardenTool.build {}).result with
  | error cause =>
    rw [built] at listed
    cases listed
  | ok tree =>
    rw [built] at listed
    obtain ⟨-, -, counted, -, reached⟩ := shapes_of_build built
    exact ⟨tree, rfl, Except.ok.inj listed, counted, fun argv chain read =>
      (reached argv chain read).1⟩

end ToolTree
