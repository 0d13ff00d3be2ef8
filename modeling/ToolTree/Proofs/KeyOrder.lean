import ToolTree.Decl.Reading
import ToolTree.Proofs.Walking

/-!
The order of the commands of a tool that is read.

`Yields` says what holds of everything that a step of the reading can give. A map of commands is
put together by insertions, whatever the order on the document, so in a tool that is read every map
of commands is in order of its keys (`ordered_of_ofYaml?`).
-/

namespace ToolTree

namespace Yaml.Reading

variable {α β : Type} {P : α → Prop} {Q : β → Prop}

/-- Whatever a step reads, if it does not fail, has a property. -/
def Yields (step : Reading α) (P : α → Prop) : Prop :=
  ∀ left result, step left = some result → P result.1

theorem yields_pure {a : α} (holds : P a) : Yields (pure a) P := by
  rintro left result ⟨⟩
  exact holds

theorem yields_failure : Yields (failure : Reading α) P := by
  rintro left result ⟨⟩

theorem yields_trivial (step : Reading α) : Yields step fun _ => True :=
  fun _ _ _ => trivial

theorem yields_bind {step : Reading α} {next : α → Reading β} (first : Yields step P)
    (second : ∀ a, P a → Yields (next a) Q) : Yields (step >>= next) Q := by
  intro left result ok
  obtain ⟨⟨a, left'⟩, read, ok⟩ := Option.bind_eq_some_iff.mp ok
  exact second a (first left (a, left') read) left' result ok

theorem yields_mapM {step : β → Reading α} {items : List β} (each : ∀ item, Yields (step item) P) :
    Yields (items.mapM step) fun results => ∀ result ∈ results, P result := by
  induction items with
  | nil =>
    rw [List.mapM_nil]
    exact yields_pure (by simp)
  | cons item rest ih =>
    rw [List.mapM_cons]
    refine yields_bind (each item) fun first holds => yields_bind ih fun others all => ?_
    exact yields_pure (List.forall_mem_cons.mpr ⟨holds, all⟩)

theorem yields_structured {d : Document} {depth : Nat} {known : List String}
    {read : Nat → List (String × Node) → Reading α}
    (each : ∀ depth entries, Yields (read depth entries) P) (node : Node) :
    Yields (structured d depth known read node) P := by
  refine yields_bind (yields_trivial _) fun followed _ => ?_
  split
  · split
    · exact yields_failure
    · exact yields_bind (yields_trivial _) fun entries _ => each _ entries
  · split
    · exact each depth []
    · exact yields_failure
  · exact yields_failure

theorem yields_field {entries : List (String × Node)} {key : String} {otherwise : α}
    {read : Node → Reading α} (default : P otherwise) (each : ∀ node, Yields (read node) P) :
    Yields (field entries key otherwise read) P := by
  unfold field
  split
  · exact yields_pure default
  · exact each _

/-- Maps of commands that are in order of their keys, at every depth. -/
def AllOrdered (commands : List (String × CommandDecl)) : Prop :=
  Keyed.Sorted commands ∧ ∀ entry ∈ commands, entry.2.Ordered

theorem allOrdered_nil : AllOrdered [] :=
  ⟨.nil, by simp⟩

section Commands

variable {d : Document} {depth : Nat}

theorem yields_commandDecl
    (below : ∀ depth', depth = depth' + 1 → ∀ node, Yields (commandMap d depth' node) AllOrdered)
    (node : Node) : Yields (commandDecl d depth node) CommandDecl.Ordered := by
  unfold commandDecl
  refine yields_bind (yields_trivial _) fun followed _ => ?_
  split
  · split
    · exact yields_failure
    · next depth' =>
      refine yields_bind (yields_trivial _) fun entries _ => ?_
      refine yields_bind (yields_trivial _) fun fields _ => ?_
      have assembled : ∀ commands, AllOrdered commands →
          Yields (pure (⟨fields, commands⟩ : CommandDecl)) CommandDecl.Ordered :=
        fun commands all => yields_pure (CommandDecl.ordered_iff.mpr all)
      dsimp only
      split
      · exact yields_bind (yields_pure allOrdered_nil) assembled
      · exact yields_bind (below depth' rfl _) assembled
  · split
    · exact yields_pure (CommandDecl.ordered_iff.mpr allOrdered_nil)
    · exact yields_failure
  · exact yields_failure

theorem yields_commandMap (below : ∀ depth', depth = depth' + 1 →
      ∀ node, Yields (commandDecl d depth' node) CommandDecl.Ordered)
    (node : Node) : Yields (commandMap d depth node) AllOrdered := by
  unfold commandMap
  refine yields_bind (yields_trivial _) fun followed _ => ?_
  split
  · split
    · exact yields_failure
    · next depth' =>
      have entry (pair : Node × Node) :
          Yields (do return (← text d pair.1, ← commandDecl d depth' pair.2) :
            Reading (String × CommandDecl)) fun pair => pair.2.Ordered :=
        yields_bind (yields_trivial _) fun key _ =>
          yields_bind (below depth' rfl pair.2) fun command ordered => yields_pure ordered
      refine yields_bind (yields_mapM entry) fun pairs all => yields_pure ?_
      exact ⟨Keyed.sorted_ofList pairs, Keyed.forall_ofList all⟩
  · split
    · exact yields_pure allOrdered_nil
    · exact yields_failure
  · exact yields_failure

theorem yields_ordered (d : Document) (depth : Nat) :
    (∀ node, Yields (commandDecl d depth node) CommandDecl.Ordered) ∧
      ∀ node, Yields (commandMap d depth node) AllOrdered := by
  induction depth with
  | zero => exact ⟨yields_commandDecl (by simp), yields_commandMap (by simp)⟩
  | succ depth ih =>
    refine ⟨yields_commandDecl ?_, yields_commandMap ?_⟩
    · rintro depth' ⟨⟩
      exact ih.2
    · rintro depth' ⟨⟩
      exact ih.1

theorem yields_toolDecl (d : Document) (node : Node) :
    Yields (toolDecl d node) fun tool => tool.tree.Ordered := by
  refine yields_structured (fun depth entries => ?_) node
  refine yields_bind (yields_trivial _) fun name _ => ?_
  refine yields_bind (yields_trivial _) fun description _ => ?_
  refine yields_bind (yields_trivial _) fun version _ => ?_
  refine yields_bind (yields_trivial _) fun root _ => ?_
  refine yields_bind (yields_field allOrdered_nil (yields_ordered d depth).2) fun commands all => ?_
  exact yields_pure (CommandDecl.ordered_iff.mpr all)

end Commands

end Yaml.Reading

/-- In a tool that is read from a text, every map of commands is in order of its keys. -/
theorem ordered_of_ofYaml? {text : String} {tool : ToolDecl}
    (read : ToolDecl.ofYaml? text = some tool) : tool.tree.Ordered := by
  obtain ⟨document, -, declared⟩ := Option.bind_eq_some_iff.mp read
  unfold Yaml.Document.toolDecl? at declared
  split at declared
  · cases declared
    exact CommandDecl.ordered_iff.mpr Yaml.Reading.allOrdered_nil
  · obtain ⟨result, run, rfl⟩ := Option.map_eq_some_iff.mp declared
    exact Yaml.Reading.yields_toolDecl _ _ _ result run

end ToolTree
