import Mathlib.Data.List.Basic
import Mathlib.Logic.Relator
import ToolTree.Source.Identifier
import ToolTree.Text.Quoted

/-!
How the source writes the names of functions.

`WrittenAs` says it without the checks of `functionName?`: a plain identifier stands for itself, and
a keyword gets `r#` in front. A text has at most one such name and no other text has the same one
(`biUnique_writtenAs`). The characters of a text that has a name are those of identifiers, so
nothing in it is changed by quoting (`WrittenAs.quote`).
-/

namespace ToolTree.Source

/-- A word of ASCII letters, digits and underscores that does not start with a digit, is not a lone
underscore and no keyword. -/
structure IsPlainIdentifier (word : String) : Prop where
  head : ∃ first rest, word.toList = first :: rest ∧ (first.isAlpha = true ∨ first = '_')
  characters : ∀ c ∈ word.toList, c.isAlphanum = true ∨ c = '_'
  notLone : word ≠ "_"
  notKeyword : word ∉ keywords

/-- How the source writes the name of a function: a plain identifier as it stands, a keyword with
`r#` in front, apart from those that cannot be written so. -/
inductive WrittenAs (text : String) : String → Prop where
  | plain : IsPlainIdentifier text → WrittenAs text text
  | raw : text ∈ keywords → text ∉ barredKeywords → WrittenAs text ("r#" ++ text)

/-! ### Plain identifiers -/

theorem isLetter_eq (c : Char) : isLetter c = c.isAlpha := by
  delta isLetter Char.isAlpha Char.isUpper Char.isLower
  simp only [Char.le_def, Bool.decide_and]
  exact Bool.or_comm _ _

theorem isDigit_eq (c : Char) : isDigit c = c.isDigit := by
  simp only [isDigit, Char.isDigit, Char.le_def]

theorem isNameChar_eq_true_iff {c : Char} :
    isNameChar c = true ↔ c.isAlphanum = true ∨ c = '_' := by
  simp [isNameChar, isLetter_eq, isDigit_eq, Char.isAlphanum]

theorem isKeyword_eq_true_iff {word : String} : isKeyword word = true ↔ word ∈ keywords :=
  List.contains_iff_mem

theorem isIdentifier_eq_true_iff {word : String} :
    isIdentifier word = true ↔ IsPlainIdentifier word := by
  have keyword : isKeyword word = false ↔ word ∉ keywords := by
    rw [← isKeyword_eq_true_iff, Bool.not_eq_true]
  simp only [isIdentifier, Bool.and_eq_true, bne_iff_ne, Bool.not_eq_true', keyword]
  constructor
  · rintro ⟨⟨plain, notLone⟩, notKeyword⟩
    unfold isPlainName at plain
    split at plain
    · cases plain
    · next first rest letters =>
      simp only [Bool.and_eq_true, Bool.or_eq_true, isLetter_eq, beq_iff_eq, List.all_eq_true,
        isNameChar_eq_true_iff] at plain
      refine ⟨⟨first, rest, letters, plain.1⟩, ?_, notLone, notKeyword⟩
      rw [letters]
      refine List.forall_mem_cons.mpr ⟨?_, plain.2⟩
      rcases plain.1 with letter | line
      · exact .inl (by simp [Char.isAlphanum, letter])
      · exact .inr line
  · rintro ⟨⟨first, rest, letters, start⟩, characters, notLone, notKeyword⟩
    refine ⟨⟨?_, notLone⟩, notKeyword⟩
    rw [letters, List.forall_mem_cons] at characters
    simp only [letters, isPlainName, Bool.and_eq_true, Bool.or_eq_true, isLetter_eq, beq_iff_eq,
      List.all_eq_true, isNameChar_eq_true_iff]
    exact ⟨start, characters.2⟩

/-! ### Written names -/

theorem barred_subset : barredKeywords ⊆ keywords := by
  decide

theorem functionName?_eq_some_iff {text name : String} :
    functionName? text = some name ↔ WrittenAs text name := by
  unfold functionName?
  simp only [List.contains_iff_mem, isKeyword_eq_true_iff]
  constructor
  · intro written
    split at written
    · cases written
    · next unbarred =>
      split at written
      · next keyword =>
        cases written
        exact .raw keyword unbarred
      · split at written
        · next plain =>
          cases written
          exact .plain (isIdentifier_eq_true_iff.mp plain)
        · cases written
  · intro written
    cases written with
    | plain plain =>
      have unbarred : text ∉ barredKeywords := fun barred =>
        plain.notKeyword (barred_subset barred)
      rw [if_neg unbarred, if_neg plain.notKeyword, if_pos (isIdentifier_eq_true_iff.mpr plain)]
    | raw keyword unbarred => rw [if_neg unbarred, if_pos keyword]

theorem functionName?_eq_none_iff {text : String} :
    functionName? text = none ↔ ∀ name, ¬ WrittenAs text name := by
  simp only [Option.eq_none_iff_forall_ne_some, ne_eq, functionName?_eq_some_iff]

theorem WrittenAs.not_plain {text : String} : ¬ IsPlainIdentifier ("r#" ++ text) := by
  intro plain
  have mark := plain.characters '#' (by simp)
  simp at mark

/-- A function is written in one way, and different functions are written differently. -/
theorem biUnique_writtenAs : Relator.BiUnique WrittenAs := by
  constructor
  · intro text other name written written'
    cases written with
    | plain plain =>
      cases written' with
      | plain => rfl
      | raw => exact absurd plain WrittenAs.not_plain
    | raw keyword unbarred =>
      generalize same : "r#" ++ text = name at written'
      cases written' with
      | plain plain =>
        rw [← same] at plain
        exact absurd plain WrittenAs.not_plain
      | raw => exact (String.append_right_inj "r#").mp same
  · intro text name other written written'
    rw [← functionName?_eq_some_iff] at written written'
    exact Option.some.inj (written.symm.trans written')

/-! ### Characters of names -/

theorem toNat_lt_of_nameChar {c : Char} (h : c.isAlphanum = true ∨ c = '_') : c.toNat < 128 := by
  rw [← isNameChar_eq_true_iff] at h
  simp only [isNameChar, isLetter, isDigit, Bool.or_eq_true, Bool.and_eq_true, decide_eq_true_eq,
    beq_iff_eq, Char.le_def, UInt32.le_iff_toNat_le] at h
  rcases h with letterOrDigit | rfl
  · change ((97 ≤ c.toNat ∧ c.toNat ≤ 122) ∨ (65 ≤ c.toNat ∧ c.toNat ≤ 90)) ∨
      (48 ≤ c.toNat ∧ c.toNat ≤ 57) at letterOrDigit
    omega
  · decide

theorem quoteChar_of_nameChar {c : Char} (h : c.isAlphanum = true ∨ c = '_') :
    Text.quoteChar c = [c] := by
  have table : ∀ n : Fin 128,
      (Char.ofNat n).isAlphanum = true ∨ Char.ofNat n = '_' →
        Text.quoteChar (Char.ofNat n) = [Char.ofNat n] := by
    decide +kernel
  have entry := table ⟨c.toNat, toNat_lt_of_nameChar h⟩
  rw [Char.ofNat_toNat] at entry
  exact entry h

theorem WrittenAs.characters {text name : String} (h : WrittenAs text name) :
    ∀ c ∈ text.toList, c.isAlphanum = true ∨ c = '_' := by
  have words : keywords.all (fun keyword => keyword.toList.all isNameChar) = true := by
    decide +kernel
  simp only [List.all_eq_true, isNameChar_eq_true_iff] at words
  cases h with
  | plain plain => exact plain.characters
  | raw keyword _ => exact words text keyword

/-- The name that a function is registered under is its text between quotes, nothing in it being
written in another way. -/
theorem WrittenAs.quote {text name : String} (h : WrittenAs text name) :
    Text.quote text = "\"" ++ text ++ "\"" := by
  have letters : text.toList.flatMap Text.quoteChar = text.toList := by
    rw [List.flatMap_congr fun c mem => quoteChar_of_nameChar (h.characters c mem),
      List.flatMap_singleton']
  rw [← String.toList_inj, Text.quote, Text.quoteChars, letters]
  simp

end ToolTree.Source
