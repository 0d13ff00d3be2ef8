import Mathlib.Data.List.Forall2
import ToolTree.Event

/-!
Results of steps that may fail, taken apart.

A sequence of steps gives a result exactly when each step does. With these lemmas a proof reads a
computation from its result back to its parts and never unfolds how steps are joined. A step taken
for every item of a list fails as it does for the first item that fails.
-/

namespace ToolTree

variable {ε ε' α β : Type}

theorem bind_eq_ok_iff {x : Except ε α} {f : α → Except ε β} {b : β} :
    x >>= f = .ok b ↔ ∃ a, x = .ok a ∧ f a = .ok b := by
  cases x <;> simp [Bind.bind, Except.bind]

theorem bind_eq_error_iff {x : Except ε α} {f : α → Except ε β} {e : ε} :
    x >>= f = .error e ↔ x = .error e ∨ ∃ a, x = .ok a ∧ f a = .error e := by
  cases x <;> simp [Bind.bind, Except.bind]

theorem pure_eq_ok_iff {a b : α} : (pure a : Except ε α) = .ok b ↔ a = b := by
  simp [pure, Except.pure]

theorem pure_ne_error {a : α} {e : ε} : (pure a : Except ε α) ≠ .error e := by
  simp [pure, Except.pure]

theorem map_eq_ok_iff {x : Except ε α} {f : α → β} {b : β} :
    x.map f = .ok b ↔ ∃ a, x = .ok a ∧ f a = b := by
  cases x with
  | error e => simp [Except.map]
  | ok a => simp [Except.map]

theorem mapError_eq_ok_iff {f : ε → ε'} {x : Except ε α} {a : α} :
    x.mapError f = .ok a ↔ x = .ok a := by
  cases x with
  | error cause =>
    constructor
    · intro failed
      cases failed
    · intro failed
      cases failed
  | ok value =>
    constructor
    · intro done
      cases done
      rfl
    · intro done
      cases done
      rfl

theorem mapError_eq_error_iff {f : ε → ε'} {x : Except ε α} {e : ε'} :
    x.mapError f = .error e ↔ ∃ cause, x = .error cause ∧ f cause = e := by
  cases x with
  | error cause =>
    constructor
    · intro failed
      cases failed
      exact ⟨cause, rfl, rfl⟩
    · rintro ⟨other, same, rfl⟩
      cases same
      rfl
  | ok value =>
    constructor
    · intro done
      cases done
    · rintro ⟨_, failed, -⟩
      cases failed

theorem mapError_id (x : Except ε α) : x.mapError id = x := by
  cases x with
  | error e => rfl
  | ok a => rfl

/-! ### Two results side by side -/

/-- Two results that agree: the same failure, or values that are related. -/
inductive Agree (R : α → β → Prop) : Except ε α → Except ε β → Prop where
  | ok {a : α} {b : β} : R a b → Agree R (.ok a) (.ok b)
  | error (e : ε) : Agree R (.error e) (.error e)

/-- Steps that agree, each followed by steps that agree, agree. -/
theorem Agree.bind {γ δ : Type} {R : α → β → Prop} {S : γ → δ → Prop} {x : Except ε α}
    {y : Except ε β} {f : α → Except ε γ} {g : β → Except ε δ} (h : Agree R x y)
    (next : ∀ a b, R a b → Agree S (f a) (g b)) : Agree S (x >>= f) (y >>= g) := by
  cases h with
  | ok related => exact next _ _ related
  | error e => exact .error e

/-- The same step, followed by steps that agree. -/
theorem Agree.bind_same {γ δ : Type} {S : γ → δ → Prop} {x : Except ε α} {f : α → Except ε γ}
    {g : α → Except ε δ} (next : ∀ a, Agree S (f a) (g a)) : Agree S (x >>= f) (x >>= g) := by
  cases x with
  | ok a => exact next a
  | error e => exact .error e

theorem Agree.imp {R S : α → β → Prop} {x : Except ε α} {y : Except ε β} (h : Agree R x y)
    (weaker : ∀ a b, R a b → S a b) : Agree S x y := by
  cases h with
  | ok related => exact .ok (weaker _ _ related)
  | error e => exact .error e

/-- Steps over two lists that agree item by item agree. -/
theorem Agree.foldlM {σ σ' : Type} {R : σ → σ' → Prop} {S : α → β → Prop}
    {f : σ → α → Except ε σ} {g : σ' → β → Except ε σ'} {as : List α} {bs : List β}
    (all : List.Forall₂ S as bs)
    (step : ∀ s s' a b, R s s' → S a b → Agree R (f s a) (g s' b)) {s : σ} {s' : σ'}
    (start : R s s') : Agree R (as.foldlM f s) (bs.foldlM g s') := by
  induction all generalizing s s' with
  | nil => exact .ok start
  | cons head _ ih =>
    rw [List.foldlM_cons, List.foldlM_cons]
    exact (step _ _ _ _ start head).bind fun _ _ next => ih next

/-! ### A step for every item of a list -/

section Items

variable {f : α → Except ε β} {items : List α}

theorem mapM_eq_ok_iff {results : List β} :
    items.mapM f = .ok results ↔ List.Forall₂ (fun item result => f item = .ok result) items
      results := by
  induction items generalizing results with
  | nil => rw [List.mapM_nil, pure_eq_ok_iff, List.forall₂_nil_left_iff, eq_comm]
  | cons item rest ih =>
    simp only [List.mapM_cons, bind_eq_ok_iff, pure_eq_ok_iff, ih, List.forall₂_cons_left_iff]
    constructor
    · rintro ⟨first, head, others, tail, rfl⟩
      exact ⟨first, others, head, tail, rfl⟩
    · rintro ⟨first, others, head, tail, rfl⟩
      exact ⟨first, head, others, tail, rfl⟩

theorem mapM_eq_error_iff {e : ε} :
    items.mapM f = .error e ↔ ∃ before item after, items = before ++ item :: after ∧
      (∀ earlier ∈ before, ∃ result, f earlier = .ok result) ∧ f item = .error e := by
  induction items with
  | nil => simp [pure, Except.pure]
  | cons first rest ih =>
    simp only [List.mapM_cons, bind_eq_error_iff, pure_ne_error, and_false, exists_false, or_false,
      ih]
    constructor
    · rintro (failed | ⟨result, done, before, item, after, rfl, earlier, failed⟩)
      · exact ⟨[], first, rest, rfl, by simp, failed⟩
      · refine ⟨first :: before, item, after, rfl, ?_, failed⟩
        exact List.forall_mem_cons.mpr ⟨⟨result, done⟩, earlier⟩
    · rintro ⟨before, item, after, split, earlier, failed⟩
      cases before with
      | nil =>
        obtain ⟨rfl, -⟩ := List.cons.inj split
        exact .inl failed
      | cons start before =>
        obtain ⟨rfl, rfl⟩ := List.cons.inj split
        obtain ⟨⟨result, done⟩, earlier⟩ := List.forall_mem_cons.mp earlier
        exact .inr ⟨result, done, before, item, after, rfl, earlier, failed⟩

/-- Two steps that fail alike fail alike on a list. -/
theorem mapM_eq_error_congr {γ : Type} {g : α → Except ε γ}
    (alike : ∀ item ∈ items, ∀ e, f item = .error e ↔ g item = .error e) {e : ε} :
    items.mapM f = .error e ↔ items.mapM g = .error e := by
  induction items with
  | nil => simp [List.mapM_nil, pure_ne_error]
  | cons item rest ih =>
    obtain ⟨first, others⟩ := List.forall_mem_cons.mp alike
    simp only [List.mapM_cons, bind_eq_error_iff, pure_ne_error, and_false, exists_false, or_false,
      ih others]
    refine or_congr (first e) ?_
    cases left : f item with
    | error cause =>
      have right := (first cause).mp left
      simp [right]
    | ok a =>
      cases right : g item with
      | error cause =>
        have failed := (first cause).mpr right
        rw [left] at failed
        cases failed
      | ok b => simp

end Items

end ToolTree
