import Mathlib.Data.String.Basic
import ToolTree.Text.Octets

/-!
The order of texts by their octets.

Texts are compared by code points, and their UTF-8 forms octet by octet. Both orders are one
(`octets_lt_iff`). A form starts with an octet that is larger for longer forms; forms of one length
write the code point in digits of six bits, the highest first, so each digit that is added behind
keeps them in order (`Orders.follow`).
-/

namespace ToolTree.Text

/-! ### Forms of numbers -/

/-- Forms of the numbers below a bound which differ before either ends, in the order of the
numbers. -/
def Orders (bound : Nat) (form : Nat → List UInt8) : Prop :=
  ∀ n m, n < m → m < bound → ∀ xs ys, form n ++ xs < form m ++ ys

theorem cons_lt_cons_of_lt {n m : Nat} (less : n < m) (small : m < 256) (xs ys : List UInt8) :
    UInt8.ofNat n :: xs < UInt8.ofNat m :: ys := by
  refine List.cons_lt_cons_iff.mpr (.inl ?_)
  rw [UInt8.lt_iff_toNat_lt, UInt8.toNat_ofNat', UInt8.toNat_ofNat']
  omega

/-- One octet that counts up from `lead`. -/
theorem orders_lead (size lead : Nat) (small : size + lead ≤ 256) :
    Orders size fun n => [UInt8.ofNat (n % size + lead)] := by
  intro n m less bound xs ys
  refine cons_lt_cons_of_lt ?_ ?_ xs ys
  · rw [Nat.mod_eq_of_lt bound, Nat.mod_eq_of_lt (less.trans bound)]
    exact Nat.add_lt_add_right less lead
  · rw [Nat.mod_eq_of_lt bound]
    omega

/-- A digit of six bits behind forms that are in order. -/
theorem Orders.follow {bound : Nat} {form : Nat → List UInt8} (h : Orders bound form) :
    Orders (64 * bound) fun n => form (n / 64) ++ [UInt8.ofNat (n % 64 + 128)] := by
  intro n m less bounded xs ys
  simp only [List.append_assoc, List.singleton_append]
  by_cases same : n / 64 = m / 64
  · rw [same]
    exact List.append_left_lt (cons_lt_cons_of_lt (by omega) (by omega) xs ys)
  · exact h _ _ (by omega) (by omega) _ _

/-! ### Characters and texts -/

/-- The forms of two characters differ before either ends, in the order of the characters. -/
theorem encode_append_lt {c d : Char} (less : c < d) (xs ys : List UInt8) :
    String.utf8EncodeChar c ++ xs < String.utf8EncodeChar d ++ ys := by
  have less : c.val.toNat < d.val.toNat := less
  have bound : d.val.toNat < 8 * 64 * 64 * 64 := by
    rcases d.valid with low | ⟨-, high⟩
    · exact Nat.lt_trans low (by decide)
    · exact Nat.lt_trans high (by decide)
  have two : Orders _ _ := (orders_lead 32 192 (by decide)).follow
  have three : Orders _ _ := (orders_lead 16 224 (by decide)).follow.follow
  have four : Orders _ _ := (orders_lead 8 240 (by decide)).follow.follow.follow
  simp only [String.utf8EncodeChar]
  generalize c.val.toNat = n at *
  generalize d.val.toNat = m at *
  -- by the length of the larger form: a shorter one has a smaller octet in front
  by_cases m₁ : m ≤ 127
  · rw [if_pos m₁, if_pos (by omega)]
    exact cons_lt_cons_of_lt less (by omega) xs ys
  rw [if_neg m₁]
  by_cases m₂ : m ≤ 2047
  · rw [if_pos m₂]
    split
    · exact cons_lt_cons_of_lt (by omega) (by omega) _ _
    · rw [if_pos (by omega)]
      exact two n m less (by omega) xs ys
  rw [if_neg m₂]
  by_cases m₃ : m ≤ 65535
  · rw [if_pos m₃]
    split
    · exact cons_lt_cons_of_lt (by omega) (by omega) _ _
    · split
      · exact cons_lt_cons_of_lt (by omega) (by omega) _ _
      · rw [if_pos (by omega)]
        simpa [Nat.div_div_eq_div_mul] using three n m less (by omega) xs ys
  · rw [if_neg m₃]
    split
    · exact cons_lt_cons_of_lt (by omega) (by omega) _ _
    · split
      · exact cons_lt_cons_of_lt (by omega) (by omega) _ _
      · split
        · exact cons_lt_cons_of_lt (by omega) (by omega) _ _
        · simpa [Nat.div_div_eq_div_mul] using four n m less (by omega) xs ys

theorem flatMap_encode_lt {cs ds : List Char} (less : cs < ds) :
    cs.flatMap String.utf8EncodeChar < ds.flatMap String.utf8EncodeChar := by
  induction cs generalizing ds with
  | nil =>
    cases ds with
    | nil => exact absurd less (List.lt_irrefl _)
    | cons d rest =>
      obtain ⟨first, others, form⟩ := List.exists_cons_of_ne_nil
        (String.utf8EncodeChar_ne_nil (c := d))
      rw [List.flatMap_cons, form]
      exact List.nil_lt_cons first _
  | cons c rest ih =>
    cases ds with
    | nil => exact absurd less (List.not_lt_nil _)
    | cons d rest' =>
      rw [List.flatMap_cons, List.flatMap_cons]
      rcases List.cons_lt_cons_iff.mp less with first | ⟨rfl, others⟩
      · exact encode_append_lt first _ _
      · exact List.append_left_lt (ih others)

theorem octets_lt {s t : String} (less : s < t) : octets s < octets t := by
  rw [octets_eq_flatMap, octets_eq_flatMap]
  exact flatMap_encode_lt (String.lt_iff_toList_lt.mp less)

/-- The order of texts is that of their octets. -/
theorem octets_lt_iff {s t : String} : octets s < octets t ↔ s < t := by
  refine ⟨fun less => ?_, octets_lt⟩
  rcases lt_trichotomy s t with before | rfl | after
  · exact before
  · exact absurd less (List.lt_irrefl _)
  · exact absurd (List.lt_trans less (octets_lt after)) (List.lt_irrefl _)

end ToolTree.Text
