import Mathlib.Order.Bounds.Basic
import Mathlib.Order.Interval.Set.OrdConnected
import ToolTree.Proofs.Building

/-!
How many words a rule stands for.

Three definitions look at the kind and the bounds of a declared rule: the check of the declaration,
the rule it resolves to, and the check of a count. `ArgsDecl.Means` says apart from them which
counts a declaration means. A declaration without a problem resolves to a rule that accepts these
counts, and they are an interval whose least element is the number of fixed slots
(`counts_of_unproblematic`).
-/

namespace ToolTree

/-- The counts that a kind of rule means with the bounds of a declaration. -/
def ArityKind.Means : ArityKind → ArgsDecl → Nat → Prop
  | .none, _, count => count = 0
  | .any, _, _ => True
  | .exact, args, count => (count : Int) = args.count
  | .min, args, count => args.min ≤ count
  | .max, args, count => (count : Int) ≤ args.max
  | .range, args, count => args.min ≤ count ∧ (count : Int) ≤ args.max

/-- The counts that a declaration means: all of them if it names no kind. -/
def ArgsDecl.Means (args : ArgsDecl) (count : Nat) : Prop :=
  args.kind ≠ "" → ∃ kind : ArityKind, args.kind = kind.spelling ∧ kind.Means args count

theorem ArgsDecl.means_iff_of_spelling {args : ArgsDecl} {kind : ArityKind}
    (spelt : args.kind = kind.spelling) (count : Nat) :
    args.Means count ↔ kind.Means args count := by
  constructor
  · intro means
    obtain ⟨other, spelt', means⟩ := means (spelt ▸ kind.spelling_ne_empty)
    rwa [ArityKind.spelling_injective (spelt.symm.trans spelt')]
  · exact fun means _ => ⟨kind, spelt, means⟩

/-- With bounds that fit the kind, the rule of the kind accepts what is meant. -/
theorem ArityKind.accepts_rule_iff {args : ArgsDecl} {kind : ArityKind}
    (admits : kind.Admits args) (count : Nat) :
    (kind.rule args).Accepts count ↔ kind.Means args count := by
  rw [Arity.accepts_iff]
  cases kind <;> simp only [rule, Means, Admits, Arity.fixedSlots, Arity.limit?] at *
  all_goals simp
  all_goals omega

/-- A well-formed declaration resolves to a rule that accepts the counts it means. -/
theorem ArgsDecl.WellFormed.accepts_iff {args : ArgsDecl} (h : args.WellFormed) {rule : Arity}
    (resolved : args.arity = .ok rule) (count : Nat) : rule.Accepts count ↔ args.Means count := by
  by_cases empty : args.kind = ""
  · rw [arity_of_empty empty] at resolved
    cases resolved
    exact iff_of_true rfl fun named => absurd empty named
  · obtain ⟨kind, spelt, admits⟩ := h empty
    rw [arity_of_admits spelt admits] at resolved
    cases resolved
    rw [ArityKind.accepts_rule_iff admits, means_iff_of_spelling spelt]

/-- Between two accepted counts every count is accepted. -/
theorem Arity.ordConnected (rule : Arity) : {count | rule.Accepts count}.OrdConnected := by
  refine ⟨fun low lowAccepted high highAccepted count between => ?_⟩
  obtain ⟨least, -⟩ := Arity.accepts_iff.mp lowAccepted
  obtain ⟨-, bounded⟩ := Arity.accepts_iff.mp highAccepted
  exact Arity.accepts_iff.mpr ⟨least.trans between.1,
    fun limit is => between.2.trans (bounded limit is)⟩

/-- A declared rule without a problem resolves, to a rule whose accepted counts are those that the
kind and the bounds mean; they are an interval, and its least element is the number of words that
every line has. A declaration that does not resolve has a problem. -/
theorem counts_of_unproblematic (args : ArgsDecl) (path : String) :
    (args.problems path = [] → ∃ rule, args.arity = .ok rule ∧
      (∀ count, rule.Accepts count ↔ args.Means count) ∧
      {count | rule.Accepts count}.OrdConnected ∧
      IsLeast {count | rule.Accepts count} rule.fixedSlots) ∧
    ∀ cause, args.arity = .error cause → args.problems path ≠ [] := by
  rw [ArgsDecl.problems_eq_nil_iff]
  refine ⟨fun wellFormed => ?_, fun cause failed sound => ?_⟩
  · obtain ⟨rule, resolved⟩ := wellFormed.arity
    refine ⟨rule, resolved, wellFormed.accepts_iff resolved, rule.ordConnected,
      wellFormed.accepts_fixedSlots resolved, fun count accepted => ?_⟩
    exact (Arity.accepts_iff.mp accepted).1
  · obtain ⟨rule, resolved⟩ := (ArgsDecl.problems_eq_nil_iff.mp sound).arity
    rw [failed] at resolved
    cases resolved

/-- A rule with the least and the greatest bounds that a range may have. -/
def convoyRule : ArgsDecl :=
  .between 0 9223372036854775807

/-- The range accepts no count above its bounds; a rule with a negative bound is reported. -/
theorem counts_of_unproblematic_convoy :
    convoyRule.problems "convoy" = [] ∧
    (∃ rule, convoyRule.arity = .ok rule ∧ ¬ rule.Accepts 9223372036854775808 ∧
      IsLeast {count | rule.Accepts count} rule.fixedSlots) ∧
    (ArgsDecl.exactly (-1)).arity = .error (.negativeBound "count" (-1)) ∧
    (ArgsDecl.exactly (-1)).problems "convoy" ≠ [] := by
  have sound : convoyRule.problems "convoy" = [] := by decide
  have failed : (ArgsDecl.exactly (-1)).arity = .error (.negativeBound "count" (-1)) := by rfl
  obtain ⟨rule, resolved, meant, -, least⟩ := (counts_of_unproblematic convoyRule "convoy").1 sound
  refine ⟨sound, ⟨rule, resolved, fun accepted => ?_, least⟩, failed,
    (counts_of_unproblematic _ "convoy").2 _ failed⟩
  have range : convoyRule.kind = ArityKind.range.spelling := rfl
  have bounds := (ArgsDecl.means_iff_of_spelling range _).mp ((meant _).mp accepted)
  exact absurd bounds.2 (by decide)

end ToolTree
