import Mathlib.Data.List.Dedup
import Mathlib.Data.List.Induction
import ToolTree.Proofs.OctetOrder
import ToolTree.Tree.Registry

/-!
What a registry holds after any registrations.

A registration binds a name to a function of either kind, and the last one of a name counts
(`Binds`). A registry `Records` registrations when its names are in order and each is bound as the
last of them says. An empty registry records none, and one more registration is recorded behind the
others (`Records.register`), so the registry that is made of registrations records all of them.
Everything that it can be asked follows (`Records.answers`), and a registry is known by what it
records, so registrations of different names can be made in either order.
-/

namespace ToolTree

namespace Registry

/-- The last of the registrations of a name binds it to the function. -/
def Binds (steps : List (String × Handler)) (name : String) (handler : Handler) : Prop :=
  ∃ before after, steps = before ++ (name, handler) :: after ∧ name ∉ after.map Prod.fst

/-- A registry in order of the names that binds each as the last of the registrations says. -/
structure Records (registry : Registry) (steps : List (String × Handler)) : Prop where
  sorted : Keyed.Sorted registry.bindings
  bound : ∀ name handler, registry.get? name = some handler ↔ Binds steps name handler

/-- What a registry says of registrations: the function of a name is the last that was registered,
and the names are those that were, each once, in order of their octets. -/
structure Answers (registry : Registry) (steps : List (String × Handler)) : Prop where
  bound : ∀ name handler, registry.get? name = some handler ↔ Binds steps name handler
  unbound : ∀ name, registry.get? name = none ↔ name ∉ steps.map Prod.fst
  contains : ∀ name, registry.contains name = true ↔ ∃ handler, registry.get? name = some handler
  listed : ∀ name, name ∈ registry.names ↔ name ∈ steps.map Prod.fst
  increasing : registry.names.Pairwise fun name later => Text.octets name < Text.octets later
  size : registry.size = (steps.map Prod.fst).dedup.length
  isEmpty : registry.isEmpty = true ↔ steps = []

variable {registry registry' : Registry} {steps : List (String × Handler)} {name : String}
  {handler : Handler}

/-! ### One more registration -/

theorem binds_concat_iff (step : String × Handler) :
    Binds (steps ++ [step]) name handler ↔
      step = (name, handler) ∨ step.1 ≠ name ∧ Binds steps name handler := by
  constructor
  · rintro ⟨before, after, split, last⟩
    rcases List.eq_nil_or_concat after with rfl | ⟨rest, step', rfl⟩
    · obtain ⟨-, same⟩ := List.append_inj' split rfl
      exact .inl (List.singleton_inj.mp same)
    · rw [List.concat_eq_append, ← List.cons_append, ← List.append_assoc] at split
      obtain ⟨rfl, same⟩ := List.append_inj' split rfl
      cases same
      rw [List.concat_eq_append, List.map_append, List.mem_append, not_or] at last
      refine .inr ⟨?_, before, rest, rfl, last.1⟩
      rintro rfl
      exact last.2 List.mem_cons_self
  · rintro (rfl | ⟨apart, before, after, rfl, last⟩)
    · exact ⟨steps, [], rfl, List.not_mem_nil⟩
    · refine ⟨before, after ++ [step], by simp, ?_⟩
      rw [List.map_append, List.mem_append, not_or]
      exact ⟨last, by simpa using Ne.symm apart⟩

theorem get?_register (registry : Registry) (name other : String) (handler : Handler) :
    (registry.register name handler).get? other =
      if name = other then some handler else registry.get? other := by
  split
  · next same =>
    subst same
    exact get?_register_self registry name handler
  · next apart => exact get?_register_of_ne apart registry handler

theorem records_empty : Records {} [] where
  sorted := .nil
  bound := by
    intro name handler
    constructor
    · rintro ⟨⟩
    · rintro ⟨before, after, split, -⟩
      exact absurd split.symm (by simp)

/-- One more registration is recorded behind the others. -/
theorem Records.register (h : registry.Records steps) (step : String × Handler) :
    (registry.register step.1 step.2).Records (steps ++ [step]) where
  sorted := h.sorted.insert step.1 step.2
  bound := by
    intro name handler
    rw [get?_register, binds_concat_iff, ← h.bound]
    obtain ⟨other, handler'⟩ := step
    by_cases same : other = name
    · simp [same]
    · simp [same]

theorem ofList_append (steps more : List (String × Handler)) :
    ofList (steps ++ more) =
      more.foldl (fun registry step => registry.register step.1 step.2) (ofList steps) :=
  List.foldl_append

/-- What is made of registrations records all of them. -/
theorem records_ofList (steps : List (String × Handler)) : (ofList steps).Records steps := by
  induction steps using List.reverseRecOn with
  | nil => exact records_empty
  | append_singleton steps step ih =>
    rw [ofList_append]
    exact ih.register step

/-! ### What is recorded -/

/-- A name that was registered has a last registration. -/
theorem exists_binds_iff : (∃ handler, Binds steps name handler) ↔ name ∈ steps.map Prod.fst := by
  induction steps using List.reverseRecOn with
  | nil => simp [Binds]
  | append_singleton steps step ih =>
    obtain ⟨other, handler⟩ := step
    simp only [binds_concat_iff, List.map_append, List.mem_append, ← ih]
    by_cases same : other = name
    · subst same
      simp
    · simp [same, Ne.symm same]

namespace Records

theorem exists_get?_iff (h : registry.Records steps) :
    (∃ handler, registry.get? name = some handler) ↔ name ∈ steps.map Prod.fst := by
  simp only [h.bound]
  exact exists_binds_iff

theorem mem_names_iff (h : registry.Records steps) :
    name ∈ registry.names ↔ name ∈ steps.map Prod.fst := by
  rw [← h.exists_get?_iff, names, Keyed.keys, List.mem_map]
  constructor
  · rintro ⟨⟨_, handler⟩, mem, rfl⟩
    exact ⟨handler, (Keyed.find?_eq_some_iff_mem h.sorted.nodup).mpr mem⟩
  · rintro ⟨handler, found⟩
    exact ⟨(name, handler), (Keyed.find?_eq_some_iff_mem h.sorted.nodup).mp found, rfl⟩

/-- The names are those that were registered, each once. -/
theorem names_perm (h : registry.Records steps) :
    registry.names.Perm (steps.map Prod.fst).dedup := by
  refine (List.perm_ext_iff_of_nodup h.sorted.nodup (List.nodup_dedup _)).mpr fun name => ?_
  rw [List.mem_dedup]
  exact h.mem_names_iff

theorem answers (h : registry.Records steps) : registry.Answers steps where
  bound := h.bound
  unbound name := by
    rw [← h.exists_get?_iff, Option.eq_none_iff_forall_ne_some, not_exists]
  contains name := by
    rw [contains, Option.isSome_iff_exists]
  listed name := h.mem_names_iff
  increasing := h.sorted.imp Text.octets_lt
  size := by
    rw [← h.names_perm.length_eq, size, names, Keyed.keys, List.length_map]
  isEmpty := by
    have unlisted : registry.bindings = [] ↔ registry.names = [] := List.map_eq_nil_iff.symm
    rw [isEmpty, List.isEmpty_iff, unlisted, List.eq_nil_iff_forall_not_mem]
    simp only [h.mem_names_iff]
    rw [← List.eq_nil_iff_forall_not_mem, List.map_eq_nil_iff]

end Records

/-- Whatever is registered after nothing, the registry answers for it, and two registrations of
different names next to each other can be made in either order. -/
theorem registrations_answered :
    (∀ steps, (ofList steps).Answers steps) ∧
      ∀ before first second after, first.1 ≠ second.1 →
        ofList (before ++ first :: second :: after) =
          ofList (before ++ second :: first :: after) := by
  refine ⟨fun steps => (records_ofList steps).answers, fun before first second after apart => ?_⟩
  have sorted := (records_ofList before).sorted
  have swapped : ((ofList before).register first.1 first.2).register second.1 second.2 =
      ((ofList before).register second.1 second.2).register first.1 first.2 :=
    congrArg Registry.mk (sorted.insert_comm apart.symm second.2 first.2)
  rw [ofList_append, ofList_append, List.foldl_cons, List.foldl_cons, List.foldl_cons,
    List.foldl_cons, swapped]

end Registry

end ToolTree
