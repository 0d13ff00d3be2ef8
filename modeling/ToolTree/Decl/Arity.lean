import ToolTree.Text.Quoted

/-!
How many positional words a command takes.

A declaration names one of six kinds in words and gives bounds as integers; `Arity` is the rule
they resolve to, with natural bounds. `Arity.check` compares a count with a rule and names the
bound that it breaks.
-/

namespace ToolTree

/-- The kinds of arity rule that a declaration can name. -/
inductive ArityKind where
  | none
  | any
  | exact
  | min
  | max
  | range
  deriving DecidableEq, Repr

namespace ArityKind

/-- All kinds, in the order of the documentation. -/
def all : List ArityKind :=
  [.none, .any, .exact, .min, .max, .range]

/-- The word for a kind in a declaration. -/
def spelling : ArityKind → String
  | .none => "none"
  | .any => "any"
  | .exact => "exact"
  | .min => "min"
  | .max => "max"
  | .range => "range"

/-- The kind that a word spells. -/
def ofSpelling? (word : String) : Option ArityKind :=
  all.find? fun kind => kind.spelling == word

theorem ofSpelling?_spelling (kind : ArityKind) : ofSpelling? kind.spelling = some kind := by
  cases kind <;> rfl

end ArityKind

/-- A rule on the number of positional words. -/
inductive Arity where
  | none
  | any
  | exactly (n : Nat)
  | atLeast (n : Nat)
  | atMost (n : Nat)
  | between (low high : Nat)
  deriving DecidableEq, Repr

/-- How a count breaks a rule. -/
inductive ArityError where
  | noArgs (received : Nat)
  | exact (expected received : Nat)
  | tooFew (low received : Nat)
  | tooMany (high received : Nat)
  | outOfRange (low high received : Nat)
  deriving DecidableEq, Repr

/-- The text of an arity error. -/
def ArityError.message : ArityError → String
  | .noArgs received => s!"accepts no arguments, received {received}"
  | .exact expected received => s!"accepts {expected} arg(s), received {received}"
  | .tooFew low received => s!"requires at least {low} arg(s), only received {received}"
  | .tooMany high received => s!"accepts at most {high} arg(s), received {received}"
  | .outOfRange low high received =>
    s!"accepts between {low} and {high} arg(s), received {received}"

namespace Arity

/-- Compares a count with a rule. -/
def check (rule : Arity) (received : Nat) : Except ArityError Unit :=
  match rule with
  | .none => if received > 0 then .error (.noArgs received) else .ok ()
  | .any => .ok ()
  | .exactly n => if received ≠ n then .error (.exact n received) else .ok ()
  | .atLeast n => if received < n then .error (.tooFew n received) else .ok ()
  | .atMost n => if received > n then .error (.tooMany n received) else .ok ()
  | .between low high =>
    if received < low ∨ received > high then .error (.outOfRange low high received) else .ok ()

/-- A rule accepts a count when the check raises nothing. -/
def Accepts (rule : Arity) (count : Nat) : Prop :=
  rule.check count = .ok ()

instance (rule : Arity) (count : Nat) : Decidable (rule.Accepts count) :=
  decidable_of_iff ((rule.check count).isOk = true) <| by
    unfold Accepts
    cases rule.check count <;> simp [Except.isOk, Except.toBool]

/-- The number of leading words that every accepted line has. -/
def fixedSlots : Arity → Nat
  | .exactly n => n
  | .atLeast n => n
  | .between low _ => low
  | .none => 0
  | .any => 0
  | .atMost _ => 0

/-- The greatest number of words that a line may have, if there is one. -/
def limit? : Arity → Option Nat
  | .none => some 0
  | .exactly n => some n
  | .atMost n => some n
  | .between _ high => some high
  | .any => Option.none
  | .atLeast _ => Option.none

/-- The accepted counts are those between two bounds. -/
theorem accepts_iff {rule : Arity} {count : Nat} :
    rule.Accepts count ↔
      rule.fixedSlots ≤ count ∧ ∀ limit, rule.limit? = some limit → count ≤ limit := by
  cases rule <;> simp [Accepts, check, fixedSlots, limit?]
  all_goals omega

/-- The rule in a sentence. -/
def describe : Arity → String
  | .none => "No arguments allowed"
  | .any => "Any number of arguments"
  | .exactly n => s!"Exactly {n} argument(s) required"
  | .atLeast n => s!"At least {n} argument(s) required"
  | .atMost n => s!"At most {n} argument(s) allowed"
  | .between low high => s!"{low} to {high} argument(s)"

end Arity

/-- Why a declared rule does not resolve. -/
inductive RuleError where
  | unknownType (found : String)
  | negativeBound (field : String) (value : Int)
  deriving DecidableEq, Repr

/-- The text of a rule error. -/
def RuleError.message : RuleError → String
  | .unknownType found => s!"unknown args type {Text.quote found}"
  | .negativeBound field value => s!"args {field} must not be negative (got {value})"

end ToolTree
