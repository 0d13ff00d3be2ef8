import ToolTree.Tree.Build

/-!
Where a command stands in a tree of commands.

`Leads c above names d` says that the canonical names `names` lead from `c` down to `d`, past the
commands `above`, of which `c` is the first. `forall_leads_iff` opens a statement about all
commands of a tree into one about its top and one about each tree right below; with
`CommandDecl.induction` it turns every walk over a tree into a statement about lineages.
-/

namespace ToolTree

namespace CommandDecl

/-- What holds of a command once it holds of the commands right below it holds of every command. -/
@[elab_as_elim]
theorem induction {P : CommandDecl → Prop}
    (step : ∀ fields commands, (∀ entry ∈ commands, P entry.2) → P ⟨fields, commands⟩)
    (c : CommandDecl) : P c := by
  refine @CommandDecl.rec P (fun commands => ∀ entry ∈ commands, P entry.2)
    (fun entry => P entry.2) step ?_ ?_ ?_ c
  · intro entry mem
    cases mem
  · intro head tail ihHead ihTail entry mem
    rcases List.mem_cons.mp mem with rfl | mem
    · exact ihHead
    · exact ihTail entry mem
  · intro _ _ ih
    exact ih

/-- The names `names` lead from the first command down to the last one, past the commands
`above`. -/
inductive Leads : CommandDecl → List CommandFields → List String → CommandDecl → Prop where
  | here (c : CommandDecl) : Leads c [] [] c
  | down {c : CommandDecl} {key : String} {child : CommandDecl} {above : List CommandFields}
      {names : List String} {d : CommandDecl} :
      (key, child) ∈ c.commands → Leads child above names d →
      Leads c (c.toCommandFields :: above) (child.nameOr key :: names) d

theorem forall_leads_iff {c : CommandDecl}
    {P : List CommandFields → List String → CommandDecl → Prop} :
    (∀ above names d, c.Leads above names d → P above names d) ↔
      P [] [] c ∧ ∀ key child, (key, child) ∈ c.commands → ∀ above names d,
        child.Leads above names d →
          P (c.toCommandFields :: above) (child.nameOr key :: names) d := by
  constructor
  · intro h
    exact ⟨h _ _ _ (.here c), fun key child mem above names d leads =>
      h _ _ _ (.down mem leads)⟩
  · rintro ⟨top, below⟩ above names d leads
    cases leads with
    | here => exact top
    | down mem leads => exact below _ _ mem _ _ _ leads

/-- Every command on the way down is one that some names lead to. -/
theorem Leads.of_mem_above {c : CommandDecl} {above : List CommandFields} {names : List String}
    {d : CommandDecl} (leads : c.Leads above names d) {upper : CommandFields}
    (mem : upper ∈ above) :
    ∃ above' names' e, c.Leads above' names' e ∧ e.toCommandFields = upper := by
  induction leads with
  | here => cases mem
  | @down c key child above names d entry leads ih =>
    rcases List.mem_cons.mp mem with rfl | mem
    · exact ⟨[], [], c, .here c, rfl⟩
    · obtain ⟨above', names', e, leads', same⟩ := ih mem
      exact ⟨_, _, e, .down entry leads', same⟩

end CommandDecl

/-- The path that names lead to from a path. -/
def pathFrom (path : String) (names : List String) : String :=
  names.foldl childPath path

/-- The root command of a tool with the commands that stand below it. -/
def ToolDecl.tree (tool : ToolDecl) : CommandDecl :=
  ⟨tool.root.toCommandFields, tool.commands⟩

end ToolTree
