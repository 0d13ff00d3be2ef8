import Mathlib.Data.List.Pairwise
import ToolTree.Proofs.Building

/-!
The walk over the commands of a tool.

`LeadsAt` is `Leads` with the keys that the commands on the way stand under, and `placed` lists the
sites of a command and of those below it together with these keys. What is listed is what keys lead
to (`mem_placed_iff`). Where every map of commands is in order of its keys (`Ordered`), the listing
is in order of the keys: a command before those below it, and siblings with all below them in the
order of theirs.
-/

namespace ToolTree

namespace CommandDecl

/-! ### Keys on the way down -/

/-- The keys `keys`, which stand for the names `names`, lead from the first command down to the
last one, past the commands `above`. -/
inductive LeadsAt :
    CommandDecl → List String → List CommandFields → List String → CommandDecl → Prop where
  | here (c : CommandDecl) : LeadsAt c [] [] [] c
  | down {c : CommandDecl} {key : String} {child : CommandDecl} {keys : List String}
      {above : List CommandFields} {names : List String} {d : CommandDecl} :
      (key, child) ∈ c.commands → LeadsAt child keys above names d →
      LeadsAt c (key :: keys) (c.toCommandFields :: above) (child.nameOr key :: names) d

section Keys

variable {c d : CommandDecl} {keys : List String} {above : List CommandFields}
  {names : List String}

theorem LeadsAt.leads (h : c.LeadsAt keys above names d) : c.Leads above names d := by
  induction h with
  | here c => exact .here c
  | down entry _ ih => exact .down entry ih

theorem Leads.exists_keys (h : c.Leads above names d) : ∃ keys, c.LeadsAt keys above names d := by
  induction h with
  | here c => exact ⟨[], .here c⟩
  | @down c key child above names d entry _ ih =>
    obtain ⟨keys, leads⟩ := ih
    exact ⟨key :: keys, .down entry leads⟩

end Keys

/-- Every map of commands in the tree of a command is in order of its keys. -/
def Ordered (c : CommandDecl) : Prop :=
  ∀ above names d, c.Leads above names d → Keyed.Sorted d.commands

@[simp] theorem ordered_iff {fields : CommandFields} {commands : List (String × CommandDecl)} :
    Ordered ⟨fields, commands⟩ ↔
      Keyed.Sorted commands ∧ ∀ entry ∈ commands, entry.2.Ordered := by
  unfold Ordered
  rw [forall_leads_iff (P := fun _ _ d => Keyed.Sorted d.commands)]
  simp only [Prod.forall]

end CommandDecl

/-! ### Sites with their keys -/

mutual

/-- The sites of a command and of those below it, each with the keys that lead to it. -/
def CommandDecl.placed (path : String) : CommandDecl → List (List String × Site)
  | ⟨fields, commands⟩ => ([], ⟨path, fields⟩) :: placedBelow path commands

/-- The sites of commands that stand below a path, each with the keys that lead to it. -/
def placedBelow (parent : String) : List (String × CommandDecl) → List (List String × Site)
  | [] => []
  | (key, command) :: rest =>
    (command.placed (childPath parent (command.nameOr key))).map (Prod.map (key :: ·) id) ++
      placedBelow parent rest

end

theorem placedBelow_eq_flatMap (parent : String) (commands : List (String × CommandDecl)) :
    placedBelow parent commands = commands.flatMap fun entry =>
      (entry.2.placed (childPath parent (entry.2.nameOr entry.1))).map
        (Prod.map (entry.1 :: ·) id) := by
  induction commands with
  | nil => rfl
  | cons entry rest ih => rw [placedBelow, ih, List.flatMap_cons]

theorem sitesBelow_eq_flatMap (parent : String) (commands : List (String × CommandDecl)) :
    sitesBelow parent commands = commands.flatMap fun entry =>
      entry.2.sites (childPath parent (entry.2.nameOr entry.1)) := by
  induction commands with
  | nil => rfl
  | cons entry rest ih => rw [sitesBelow, ih, List.flatMap_cons]

namespace CommandDecl

theorem sites_eq_map (c : CommandDecl) (path : String) :
    c.sites path = (c.placed path).map Prod.snd := by
  induction c using CommandDecl.induction generalizing path with
  | step fields commands ih =>
    rw [sites, placed, List.map_cons, sitesBelow_eq_flatMap, placedBelow_eq_flatMap,
      List.map_flatMap]
    refine congrArg (Site.mk path fields :: ·) ?_
    refine List.flatMap_congr fun entry mem => ?_
    rw [ih entry mem, List.map_map]
    rfl

/-- What is listed is what keys lead to. -/
theorem mem_placed_iff {c : CommandDecl} {path : String} {keys : List String} {site : Site} :
    (keys, site) ∈ c.placed path ↔ ∃ above names d, c.LeadsAt keys above names d ∧
      site = ⟨pathFrom path names, d.toCommandFields⟩ := by
  induction c using CommandDecl.induction generalizing path keys site with
  | step fields commands ih =>
    rw [placed, List.mem_cons, placedBelow_eq_flatMap, List.mem_flatMap]
    constructor
    · rintro (top | ⟨⟨key, child⟩, entry, among⟩)
      · obtain ⟨rfl, rfl⟩ := Prod.mk.inj top
        exact ⟨[], [], ⟨fields, commands⟩, .here _, rfl⟩
      · obtain ⟨below, listed, same⟩ := List.mem_map.mp among
        obtain ⟨rfl, rfl⟩ := Prod.mk.inj same
        obtain ⟨above, names, d, leads, same⟩ := (ih (key, child) entry).mp listed
        exact ⟨_, _, d, .down entry leads, same⟩
    · rintro ⟨above, names, d, leads, rfl⟩
      cases leads with
      | here => exact .inl rfl
      | @down _ key child keys above names d entry leads =>
        have listed : (keys, ⟨pathFrom (childPath path (child.nameOr key)) names,
            d.toCommandFields⟩) ∈ child.placed (childPath path (child.nameOr key)) :=
          (ih (key, child) entry).mpr ⟨above, names, d, leads, rfl⟩
        exact .inr ⟨(key, child), entry, List.mem_map.mpr ⟨_, listed, rfl⟩⟩

/-- Maps in order of their keys are walked in order of the keys. -/
theorem Ordered.increasing {c : CommandDecl} (h : c.Ordered) (path : String) :
    (c.placed path).Pairwise fun earlier later => earlier.1 < later.1 := by
  induction c using CommandDecl.induction generalizing path with
  | step fields commands ih =>
    obtain ⟨sorted, below⟩ := ordered_iff.mp h
    rw [placed, placedBelow_eq_flatMap, List.pairwise_cons, List.pairwise_flatMap]
    refine ⟨fun placed mem => ?_, fun entry mem => ?_, ?_⟩
    · obtain ⟨entry, -, mem⟩ := List.mem_flatMap.mp mem
      obtain ⟨rest, -, rfl⟩ := List.mem_map.mp mem
      exact List.nil_lt_cons _ _
    · refine List.pairwise_map.mpr ((ih entry mem (below entry mem) _).imp fun less => ?_)
      exact List.cons_lt_cons_iff.mpr (.inr ⟨rfl, less⟩)
    · refine (List.pairwise_map.mp sorted).imp fun less placed mem placed' mem' => ?_
      obtain ⟨rest, -, rfl⟩ := List.mem_map.mp mem
      obtain ⟨rest', -, rfl⟩ := List.mem_map.mp mem'
      exact List.cons_lt_cons_iff.mpr (.inl less)

end CommandDecl

/-- The walk over a tool is that over its tree. -/
theorem ToolDecl.sites_eq (tool : ToolDecl) : tool.sites = tool.tree.sites tool.rootName := by
  rw [ToolDecl.sites, ToolDecl.tree, CommandDecl.sites]

end ToolTree
