import ToolTree.Proofs.Failing
import ToolTree.Proofs.Shape
import ToolTree.Proofs.Walking
import ToolTree.Source.Function

/-!
The functions of a tool, as they are collected and as they are bound.

The collector goes through the sites of the walk and keeps the first of each function
(`handlerSpecs_eq_firsts`). So the functions of a tool are those that its commands name, each once
and described by the first command in the walk that names it (`ToolDecl.FirstAt`). The same commands
are built, so a registry that knows the collected functions knows all that are asked for, and the
path of each description is that of the node that its function is bound to.
-/

namespace ToolTree

/-! ### First sites -/

section Firsts

variable {κ : Type}

/-- The collector keeps the sites whose function no site before them names. -/
theorem handlerSpecs_eq_firsts (seen : List String) (placed : List (κ × Site)) :
    ∃ firsts : List (κ × Site), firsts.Sublist placed ∧
      handlerSpecs seen (placed.map Prod.snd) = firsts.map (fun first => .ofSite first.2) ∧
      ∀ first ∈ firsts, first.2.command.handler ≠ "" ∧ first.2.command.handler ∉ seen ∧
        ∃ before after, placed = before ++ first :: after ∧
          ∀ earlier ∈ before, earlier.2.command.handler ≠ first.2.command.handler := by
  induction placed generalizing seen with
  | nil => exact ⟨[], .slnil, rfl, by simp⟩
  | cons next rest ih =>
    rw [List.map_cons, handlerSpecs]
    split
    · next skipped =>
      obtain ⟨firsts, kept, specs, each⟩ := ih seen
      refine ⟨firsts, kept.cons next, specs, fun first mem => ?_⟩
      obtain ⟨named, fresh, before, after, rfl, apart⟩ := each first mem
      refine ⟨named, fresh, next :: before, after, rfl, List.forall_mem_cons.mpr ⟨?_, apart⟩⟩
      intro same
      rw [same] at skipped
      exact skipped.elim named fresh
    · next taken =>
      rw [not_or] at taken
      obtain ⟨firsts, kept, specs, each⟩ := ih (next.2.command.handler :: seen)
      refine ⟨next :: firsts, kept.cons_cons next, by rw [specs, List.map_cons], ?_⟩
      refine List.forall_mem_cons.mpr ⟨⟨taken.1, taken.2, [], rest, rfl, by simp⟩, ?_⟩
      intro first mem
      obtain ⟨named, fresh, before, after, rfl, apart⟩ := each first mem
      rw [List.mem_cons, not_or] at fresh
      exact ⟨named, fresh.2, next :: before, after, rfl,
        List.forall_mem_cons.mpr ⟨Ne.symm fresh.1, apart⟩⟩

end Firsts

theorem mem_names_handlerSpecs_iff {seen : List String} {sites : List Site} {name : String} :
    name ∈ (handlerSpecs seen sites).map HandlerSpec.name ↔ name ≠ "" ∧ name ∉ seen ∧
      ∃ site ∈ sites, site.command.handler = name := by
  induction sites generalizing seen with
  | nil => simp [handlerSpecs]
  | cons site rest ih =>
    rw [handlerSpecs]
    split
    · next skipped =>
      rw [ih, List.exists_mem_cons_iff]
      constructor
      · rintro ⟨named, fresh, others⟩
        exact ⟨named, fresh, .inr others⟩
      · rintro ⟨named, fresh, rfl | others⟩
        · exact absurd skipped (not_or.mpr ⟨named, fresh⟩)
        · exact ⟨named, fresh, others⟩
    · next taken =>
      rw [not_or] at taken
      rw [List.map_cons, List.mem_cons, ih, List.mem_cons, not_or, List.exists_mem_cons_iff]
      constructor
      · rintro (rfl | ⟨named, fresh, others⟩)
        · exact ⟨taken.1, taken.2, .inl rfl⟩
        · exact ⟨named, fresh.2, .inr others⟩
      · rintro ⟨named, fresh, first | others⟩
        · exact .inl first.symm
        · by_cases same : name = site.command.handler
          · exact .inl same
          · exact .inr ⟨named, ⟨same, fresh⟩, others⟩

theorem nodup_names_handlerSpecs (seen : List String) (sites : List Site) :
    ((handlerSpecs seen sites).map HandlerSpec.name).Nodup := by
  induction sites generalizing seen with
  | nil => exact .nil
  | cons site rest ih =>
    rw [handlerSpecs]
    split
    · exact ih seen
    · rw [List.map_cons, List.nodup_cons, mem_names_handlerSpecs_iff]
      refine ⟨?_, ih _⟩
      rintro ⟨-, fresh, -⟩
      exact fresh List.mem_cons_self

/-! ### First commands -/

/-- A description is that of the command that keys lead to, and no command before it in the order
of the keys has the same function. -/
structure ToolDecl.FirstAt (tool : ToolDecl) (keys : List String) (spec : HandlerSpec) : Prop where
  describes : ∃ above names c, tool.tree.LeadsAt keys above names c ∧
    spec = ⟨c.handler, pathFrom tool.rootName names, c.useLine, c.summary, c.flags, c.args⟩
  named : spec.name ≠ ""
  first : ∀ keys' above names c, tool.tree.LeadsAt keys' above names c → keys' < keys →
    c.handler ≠ spec.name

/-- A command with a function is the first of the walk over a tool that has it. -/
structure ToolDecl.FirstOfWalk (tool : ToolDecl) (above : List CommandFields) (names : List String)
    (d : CommandDecl) : Prop where
  leads : tool.tree.Leads above names d
  named : d.handler ≠ ""
  first : ∃ before after,
    tool.sites = before ++ ⟨pathFrom tool.rootName names, d.toCommandFields⟩ :: after ∧
      ∀ earlier ∈ before, earlier.command.handler ≠ d.handler

section Tool

variable {tool : ToolDecl}

theorem sites_eq_placed (tool : ToolDecl) :
    tool.sites = (tool.tree.placed tool.rootName).map Prod.snd := by
  rw [tool.sites_eq, CommandDecl.sites_eq_map]

theorem firstAt_of_split (ordered : tool.tree.Ordered) {before after : List (List String × Site)}
    {first : List String × Site}
    (split : tool.tree.placed tool.rootName = before ++ first :: after)
    (named : first.2.command.handler ≠ "")
    (apart : ∀ earlier ∈ before, earlier.2.command.handler ≠ first.2.command.handler) :
    tool.FirstAt first.1 (.ofSite first.2) := by
  have increasing := ordered.increasing tool.rootName
  have listed : first ∈ tool.tree.placed tool.rootName := by simp [split]
  obtain ⟨above, names, c, leads, site⟩ := CommandDecl.mem_placed_iff.mp listed
  refine ⟨⟨above, names, c, leads, by rw [site]; rfl⟩, named, ?_⟩
  intro keys' above' names' c' leads' less
  have listed' : (keys', ⟨pathFrom tool.rootName names', c'.toCommandFields⟩) ∈
      tool.tree.placed tool.rootName :=
    CommandDecl.mem_placed_iff.mpr ⟨above', names', c', leads', rfl⟩
  -- Keys increase along the walk, so what has lesser keys stands before.
  rw [split, List.pairwise_append, List.pairwise_cons] at increasing
  obtain ⟨-, ⟨later, -⟩, -⟩ := increasing
  rw [split, List.mem_append, List.mem_cons] at listed'
  rcases listed' with earlier | rfl | after
  · exact apart _ earlier
  · exact absurd less (List.lt_irrefl _)
  · exact absurd (List.lt_trans less (later _ after)) (List.lt_irrefl _)

/-- The descriptions of a tool stand in the order of the keys that lead to their commands. -/
theorem exists_places (ordered : tool.tree.Ordered) : ∃ places : List (List String),
    places.Pairwise (· < ·) ∧ List.Forall₂ tool.FirstAt places tool.handlerSpecs := by
  obtain ⟨firsts, kept, specs, each⟩ :=
    handlerSpecs_eq_firsts [] (tool.tree.placed tool.rootName)
  rw [← sites_eq_placed] at specs
  refine ⟨firsts.map Prod.fst, ?_, ?_⟩
  · exact List.pairwise_map.mpr ((ordered.increasing tool.rootName).sublist kept)
  · rw [ToolDecl.handlerSpecs, specs, List.forall₂_map_left_iff, List.forall₂_map_right_iff,
      List.forall₂_same]
    intro first mem
    obtain ⟨named, -, before, after, split, apart⟩ := each first mem
    exact firstAt_of_split ordered split named apart

/-- The collected names are the functions that commands name. -/
theorem mem_collected_iff {name : String} :
    name ∈ tool.handlerSpecs.map HandlerSpec.name ↔ name ≠ "" ∧
      ∃ above names c, tool.tree.Leads above names c ∧ c.handler = name := by
  rw [ToolDecl.handlerSpecs, mem_names_handlerSpecs_iff, sites_eq_placed]
  refine and_congr_right fun _ => ?_
  constructor
  · rintro ⟨-, site, mem, named⟩
    obtain ⟨placed, listed, rfl⟩ := List.mem_map.mp mem
    obtain ⟨above, names, c, leads, site⟩ := CommandDecl.mem_placed_iff.mp listed
    rw [site] at named
    exact ⟨above, names, c, leads.leads, named⟩
  · rintro ⟨above, names, c, leads, named⟩
    obtain ⟨keys, leads⟩ := leads.exists_keys
    have listed := CommandDecl.mem_placed_iff.mpr
      ⟨above, names, c, leads, (rfl : _ = Site.mk (pathFrom tool.rootName names) _)⟩
    exact ⟨by simp, _, List.mem_map.mpr ⟨_, listed, rfl⟩, named⟩

/-- A description is that of the first command of the walk that has the function. -/
theorem first_of_mem {spec : HandlerSpec} (mem : spec ∈ tool.handlerSpecs) :
    ∃ above names d, tool.FirstOfWalk above names d ∧
      spec = ⟨d.handler, pathFrom tool.rootName names, d.useLine, d.summary, d.flags, d.args⟩ := by
  obtain ⟨firsts, kept, specs, each⟩ :=
    handlerSpecs_eq_firsts [] (tool.tree.placed tool.rootName)
  rw [← sites_eq_placed] at specs
  rw [ToolDecl.handlerSpecs, specs] at mem
  obtain ⟨⟨keys, site⟩, listed, rfl⟩ := List.mem_map.mp mem
  obtain ⟨named, -, before, after, split, apart⟩ := each _ listed
  obtain ⟨above, names, d, leads, rfl⟩ := CommandDecl.mem_placed_iff.mp (kept.subset listed)
  refine ⟨above, names, d, ⟨leads.leads, named, before.map Prod.snd, after.map Prod.snd, ?_, ?_⟩,
    rfl⟩
  · rw [sites_eq_placed, split, List.map_append, List.map_cons]
  · exact List.forall_mem_map.mpr apart

/-- A description is that of a command that has a function. -/
theorem described_of_mem {spec : HandlerSpec} (mem : spec ∈ tool.handlerSpecs) :
    spec.name ≠ "" ∧ ∃ above names c, tool.tree.Leads above names c ∧
      spec = ⟨c.handler, pathFrom tool.rootName names, c.useLine, c.summary, c.flags, c.args⟩ := by
  obtain ⟨above, names, c, first, rfl⟩ := first_of_mem mem
  exact ⟨first.named, above, names, c, first.leads, rfl⟩

end Tool

/-! ### Descriptions and nodes -/

section Registered

variable {tool : ToolDecl} {registry : Registry}

/-- When the collected functions are registered and take words, no function keeps the tool from
being built. -/
theorem function?_of_build
    (registered : ∀ spec ∈ tool.handlerSpecs, ∃ run, registry.get? spec.name = some (.handler run))
    {e : BuildError} (failed : (tool.build registry).result = .error e) : e.function? = none := by
  cases blames : e.function? with
  | none => rfl
  | some function =>
    obtain ⟨above, names, c, leads, named, calls, unfit⟩ := unfit_of_build failed blames
    have collected : function ∈ tool.handlerSpecs.map HandlerSpec.name :=
      mem_collected_iff.mpr ⟨named, above, names, c, leads, calls⟩
    obtain ⟨spec, mem, rfl⟩ := List.mem_map.mp collected
    obtain ⟨run, known⟩ := registered spec mem
    have action := unfit _ known
    cases action

/-- The node at the path of a description is bound to its function. -/
theorem bound_of_mem {tree : Tree} (built : (tool.build registry).result = .ok tree)
    {spec : HandlerSpec} (mem : spec ∈ tool.handlerSpecs) :
    spec.path ∈ tree.paths ∧ ∃ names node handler, tree.root.follow? names = some node ∧
      node.path = spec.path ∧ registry.get? spec.name = some handler ∧
      node.binding? = some ⟨spec.name, handler⟩ := by
  obtain ⟨named, above, names, c, leads, rfl⟩ := described_of_mem mem
  have root := stands_root built
  obtain ⟨view, node, follows, stands⟩ := root.follow leads
  constructor
  · rw [Tree.paths, root.regular.paths_eq_map]
    refine List.mem_map_of_mem (root.regular.mem_routes_iff.mpr ?_)
    rw [follows]
    rfl
  · rcases stands.binding with ⟨unnamed, -⟩ | ⟨-, handler, registered, bound⟩
    · exact absurd unnamed named
    · exact ⟨names, node, handler, follows, stands.agrees.path_eq, registered, bound⟩

end Registered

/-- The functions of a tool whose maps of commands are in order of their keys. They are the
functions that its commands name, each once, in the order of the keys that lead to the first command
of each, and described by that command. A registry that knows them, each with words, lacks none
when the tool is built, and each stands in the tree at the path of its description. -/
theorem functions_collected (tool : ToolDecl) (ordered : tool.tree.Ordered) :
    (∃ places : List (List String), places.Pairwise (· < ·) ∧
      List.Forall₂ tool.FirstAt places tool.handlerSpecs) ∧
    (tool.handlerSpecs.map HandlerSpec.name).Nodup ∧
    (∀ name, name ∈ tool.handlerSpecs.map HandlerSpec.name ↔ name ≠ "" ∧
      ∃ above names c, tool.tree.Leads above names c ∧ c.handler = name) ∧
    ∀ registry : Registry,
      (∀ spec ∈ tool.handlerSpecs, ∃ run, registry.get? spec.name = some (.handler run)) →
      (∀ path name, (tool.build registry).result ≠ .error (.functionNotRegistered path name)) ∧
      (∀ path name arity,
        (tool.build registry).result ≠ .error (.signatureMismatch path name arity)) ∧
      ∀ tree, (tool.build registry).result = .ok tree → ∀ spec ∈ tool.handlerSpecs,
        spec.path ∈ tree.paths ∧ ∃ names node handler, tree.root.follow? names = some node ∧
          node.path = spec.path ∧ registry.get? spec.name = some handler ∧
          node.binding? = some ⟨spec.name, handler⟩ := by
  refine ⟨exists_places ordered, nodup_names_handlerSpecs [] tool.sites,
    fun name => mem_collected_iff, fun registry registered => ⟨?_, ?_, ?_⟩⟩
  · intro path name failed
    cases function?_of_build registered failed
  · intro path name arity failed
    cases function?_of_build registered failed
  · intro tree built spec mem
    exact bound_of_mem built mem

/-- A tool with two functions, each of which two commands name. -/
def orchardTool : ToolDecl where
  name := "orchard"
  root := { useLine := "orchard", summary := "Keep an orchard", handler := "show" }
  commands := [
    ("a", {
      useLine := "pick <fruit>"
      summary := "Pick fruit"
      args := some (.exactly 1)
      handler := "pick"
      commands := [("z", { useLine := "all", summary := "Pick all", handler := "show" })] }),
    ("b", { useLine := "fell", summary := "Fell a tree", handler := "pick" })]

/-- Functions for the commands of the orchard. -/
def orchardRegistry : Registry :=
  .ofList [("show", .handler fun _ _ => .ok ()), ("pick", .handler fun _ _ => .ok ())]

theorem functions_collected_orchard :
    orchardTool.tree.Ordered ∧
      orchardTool.handlerSpecs.map (fun spec => (spec.name, spec.path)) =
        [("show", "orchard"), ("pick", "orchard pick")] ∧
      ∃ tree, (orchardTool.build orchardRegistry).result = .ok tree ∧
        ∀ spec ∈ orchardTool.handlerSpecs, spec.path ∈ tree.paths := by
  have ordered : orchardTool.tree.Ordered := by
    refine CommandDecl.ordered_iff.mpr ⟨?_, ?_⟩
    · have keys : (["a", "b"] : List String).Pairwise (· < ·) := by decide
      exact keys
    · simp [orchardTool, Keyed.Sorted, Keyed.keys]
  have specs : orchardTool.handlerSpecs.map (fun spec => (spec.name, spec.path)) =
      [("show", "orchard"), ("pick", "orchard pick")] := by rfl
  have registered : ∀ spec ∈ orchardTool.handlerSpecs,
      ∃ run, orchardRegistry.get? spec.name = some (.handler run) := by
    intro spec mem
    have named := List.mem_map_of_mem (f := fun spec => (spec.name, spec.path)) mem
    rw [specs] at named
    rcases List.mem_pair.mp named with same | same
    · rw [(Prod.mk.inj same).1]
      exact ⟨_, rfl⟩
    · rw [(Prod.mk.inj same).1]
      exact ⟨_, rfl⟩
  have built : ((orchardTool.build orchardRegistry).result.map fun _ => ()) = .ok () := by rfl
  cases result : (orchardTool.build orchardRegistry).result with
  | error cause =>
    rw [result] at built
    cases built
  | ok tree =>
    obtain ⟨-, -, -, closes⟩ := functions_collected orchardTool ordered
    obtain ⟨-, -, bound⟩ := closes orchardRegistry registered
    exact ⟨ordered, specs, tree, rfl, fun spec mem => (bound tree result spec mem).1⟩

end ToolTree
