import Mathlib.Data.List.Perm.Subperm
import ToolTree.Proofs.Generating

/-!
The local names of a stub.

A text is sanitized to a name that the source can write (`written_sanitize`), and a number behind a
name makes a plain identifier, since no keyword and no parameter ends in a digit
(`isPlainIdentifier_numbered`). `IsFresh` says which name is taken: the sanitized text if it is
free, else the one with the least number from 2 on that is free. There always is one
(`isFresh_freshName`), for fewer names are taken than are tried. So the names that the lines of a
stub bind are distinct, and none is that of a parameter (`Stub.locals_of_ofSpec`).
-/

namespace ToolTree.Source

/-! ### Sanitized texts -/

/-- The characters of a sanitized text, before keywords are told apart. -/
def sanitizedChars (base : String) : List Char :=
  let chars := base.toList.map fun c => if isNameChar c then c else '_'
  let chars := if chars = [] ∨ chars = ['_'] then "value".toList else chars
  match chars with
  | c :: rest => if isDigit c then '_' :: c :: rest else c :: rest
  | [] => []

theorem sanitize_eq (base : String) :
    sanitize base =
      let name := String.ofList (sanitizedChars base)
      if barredKeywords.contains name then name ++ "_"
      else if isKeyword name then "r#" ++ name
      else name :=
  rfl

theorem isPlainName_cons_iff {c : Char} {rest : List Char} :
    isPlainName (c :: rest) = true ↔
      (isLetter c = true ∨ c = '_') ∧ ∀ c ∈ rest, isNameChar c = true := by
  simp [isPlainName]

theorem isPlainName_sanitizedChars (base : String) :
    isPlainName (sanitizedChars base) = true ∧ sanitizedChars base ≠ ['_'] := by
  unfold sanitizedChars
  have letters : ∀ c ∈ base.toList.map (fun c => if isNameChar c then c else '_'),
      isNameChar c = true := by
    intro c mem
    obtain ⟨original, -, rfl⟩ := List.mem_map.mp mem
    by_cases kept : isNameChar original = true
    · rw [if_pos kept]
      exact kept
    · rw [if_neg kept]
      decide
  generalize base.toList.map (fun c => if isNameChar c then c else '_') = chars at letters
  by_cases bare : chars = [] ∨ chars = ['_']
  · simp only [if_pos bare]
    decide
  · simp only [if_neg bare]
    rw [not_or] at bare
    cases chars with
    | nil => exact absurd rfl bare.1
    | cons c rest =>
      have others := (List.forall_mem_cons.mp letters).2
      by_cases digit : isDigit c = true
      · simp only [if_pos digit]
        exact ⟨isPlainName_cons_iff.mpr ⟨.inr rfl, letters⟩, by simp⟩
      · simp only [if_neg digit]
        refine ⟨isPlainName_cons_iff.mpr ⟨?_, others⟩, bare.2⟩
        have first := (List.forall_mem_cons.mp letters).1
        simpa [isNameChar, digit] using first

/-- A sanitized text is a name that the source can write. -/
theorem written_sanitize (base : String) : ∃ word, WrittenAs word (sanitize base) := by
  obtain ⟨plain, notLone⟩ := isPlainName_sanitizedChars base
  rw [sanitize_eq]
  generalize named : String.ofList (sanitizedChars base) = name
  have spelt : name.toList = sanitizedChars base := by
    rw [← named, String.toList_ofList]
  dsimp only
  by_cases barred : barredKeywords.contains name = true
  · rw [if_pos barred]
    have marked : barredKeywords.all (fun word => isIdentifier (word ++ "_")) = true := by
      decide +kernel
    have identifier := List.all_eq_true.mp marked name (List.contains_iff_mem.mp barred)
    exact ⟨name ++ "_", .plain (isIdentifier_eq_true_iff.mp identifier)⟩
  · rw [if_neg barred]
    by_cases keyword : isKeyword name = true
    · rw [if_pos keyword]
      rw [List.contains_iff_mem] at barred
      exact ⟨name, .raw (isKeyword_eq_true_iff.mp keyword) barred⟩
    · rw [if_neg keyword]
      have apart : name ≠ "_" := by
        rintro rfl
        exact notLone spelt.symm
      refine ⟨name, .plain (isIdentifier_eq_true_iff.mp ?_)⟩
      simp [isIdentifier, spelt, plain, apart, keyword]

/-! ### Numbered names -/

theorem WrittenAs.isPlainName {word name : String} (h : WrittenAs word name) :
    isPlainName word.toList = true := by
  cases h with
  | plain plain =>
    have identifier := isIdentifier_eq_true_iff.mpr plain
    simp only [isIdentifier, Bool.and_eq_true] at identifier
    exact identifier.1.1
  | raw keyword _ =>
    have words : keywords.all (fun keyword => Source.isPlainName keyword.toList) = true := by
      decide +kernel
    exact List.all_eq_true.mp words word keyword

theorem WrittenAs.dropRaw {word name : String} (h : WrittenAs word name) :
    dropRaw name = word := by
  cases h with
  | plain plain =>
    unfold Source.dropRaw
    split
    · next rest letters =>
      have mark := plain.characters '#' (by simp [letters])
      simp at mark
    · rfl
  | raw => simp [Source.dropRaw]

theorem getLast?_numbered (base : String) (n : Nat) :
    ∃ digit, (base ++ toString n).toList.getLast? = some digit ∧ digit.isDigit = true := by
  have digits : (toString n).toList = Nat.toDigits 10 n := by
    rw [Nat.toString_eq_repr, Nat.toList_repr]
  have nonempty : Nat.toDigits 10 n ≠ [] := Nat.toDigits_ne_nil
  refine ⟨(Nat.toDigits 10 n).getLast nonempty, ?_, ?_⟩
  · rw [String.toList_append, digits, List.getLast?_append_of_ne_nil _ nonempty,
      List.getLast?_eq_some_getLast nonempty]
  · exact Nat.isDigit_of_mem_toDigits (by decide) (by decide) (List.getLast_mem nonempty)

/-- Names that do not end in a digit are no numbered names. -/
theorem ne_numbered {word : String}
    (ends : ∀ c, word.toList.getLast? = some c → c.isDigit = false) (base : String) (n : Nat) :
    base ++ toString n ≠ word := by
  rintro rfl
  obtain ⟨digit, last, isDigit⟩ := getLast?_numbered base n
  rw [ends digit last] at isDigit
  cases isDigit

/-- A number behind a name makes a plain identifier. -/
theorem isPlainIdentifier_numbered {word : String} (plain : isPlainName word.toList = true)
    (n : Nat) : IsPlainIdentifier (word ++ toString n) := by
  have words : keywords.all (fun keyword =>
      keyword.toList.getLast?.all fun c => !c.isDigit) = true := by
    decide +kernel
  have notKeyword : word ++ toString n ∉ keywords := by
    intro keyword
    have ends := List.all_eq_true.mp words _ keyword
    refine ne_numbered (fun c last => ?_) word n rfl
    rw [last] at ends
    simpa using ends
  have notLone : word ++ toString n ≠ "_" :=
    ne_numbered (by simp) word n
  have digits : ∀ c ∈ (toString n).toList, isNameChar c = true := by
    intro c mem
    rw [Nat.toString_eq_repr, Nat.toList_repr] at mem
    have digit := Nat.isDigit_of_mem_toDigits (by decide) (by decide) mem
    rw [← isDigit_eq] at digit
    simp [isNameChar, digit]
  refine isIdentifier_eq_true_iff.mp ?_
  have whole : isPlainName (word ++ toString n).toList = true := by
    rw [String.toList_append]
    cases letters : word.toList with
    | nil =>
      rw [letters] at plain
      cases plain
    | cons c rest =>
      rw [letters, isPlainName_cons_iff] at plain
      refine isPlainName_cons_iff.mpr ⟨plain.1, fun other mem => ?_⟩
      rcases List.mem_append.mp mem with own | digit
      · exact plain.2 other own
      · exact digits other digit
  have free : isKeyword (word ++ toString n) = false := by
    rw [← Bool.not_eq_true, isKeyword_eq_true_iff]
    exact notKeyword
  simp only [isIdentifier, whole, free, Bool.true_and, Bool.not_false, Bool.and_true, bne_iff_ne]
  exact notLone

theorem numbered_injective (base : String) :
    Function.Injective fun n : Nat => base ++ toString n := by
  intro n m same
  rw [String.append_right_inj, ← String.toList_inj] at same
  simp only [Nat.toString_eq_repr, Nat.toList_repr] at same
  have read := congrArg (fun digits => Nat.ofDigitChars 10 digits 0) same
  simpa using read

/-! ### Fresh names -/

/-- The name that a text gets where some names are taken: the sanitized text if it is free, else
that with the least number from 2 on with which it is free. -/
inductive IsFresh (taken : List String) (base : String) : String → Prop where
  | itself : sanitize base ∉ taken → IsFresh taken base (sanitize base)
  | numbered {n : Nat} : sanitize base ∈ taken → 2 ≤ n →
      dropRaw (sanitize base) ++ toString n ∉ taken →
      (∀ m, 2 ≤ m → m < n → dropRaw (sanitize base) ++ toString m ∈ taken) →
      IsFresh taken base (dropRaw (sanitize base) ++ toString n)

/-- More names are tried than are taken. -/
theorem exists_free_numbered (taken : List String) (base : String) :
    ∃ n < taken.length + 1, base ++ toString (n + 2) ∉ taken := by
  by_contra none
  have all : numbered base taken.length ⊆ taken := by
    intro name tried
    obtain ⟨n, below, rfl⟩ := List.mem_map.mp tried
    by_contra free
    exact none ⟨n, List.mem_range.mp below, free⟩
  have distinct : (numbered base taken.length).Nodup := by
    refine List.nodup_range.map fun n m same => ?_
    exact Nat.add_right_cancel (numbered_injective base same)
  have length := (List.Nodup.subperm distinct all).length_le
  simp only [numbered, List.length_map, List.length_range] at length
  omega

theorem isFresh_freshName (taken : List String) (base : String) :
    IsFresh taken base (freshName taken base) := by
  unfold freshName
  by_cases clash : sanitize base ∈ taken
  · simp only [if_pos clash]
    obtain ⟨n, below, free⟩ := exists_free_numbered taken (dropRaw (sanitize base))
    unfold numbered
    rw [List.find?_map]
    cases found : (List.range (taken.length + 1)).find?
        ((fun name => decide (name ∉ taken)) ∘
          fun n => dropRaw (sanitize base) ++ toString (n + 2)) with
    | none =>
      have taken := List.find?_eq_none.mp found n (List.mem_range.mpr below)
      exact absurd (decide_eq_true free) taken
    | some first =>
      obtain ⟨open', -, before⟩ := List.find?_range_eq_some.mp found
      refine .numbered clash (Nat.le_add_left 2 first) (of_decide_eq_true open') ?_
      intro m two less
      have tried := before (m - 2) (by omega)
      have same : m - 2 + 2 = m := by omega
      simpa [same] using tried
  · simp only [if_neg clash]
    exact .itself clash

namespace IsFresh

variable {taken : List String} {base name : String}

theorem free (h : IsFresh taken base name) : name ∉ taken := by
  cases h with
  | itself free => exact free
  | numbered _ _ free _ => exact free

theorem written (h : IsFresh taken base name) : ∃ word, WrittenAs word name := by
  obtain ⟨word, written⟩ := written_sanitize base
  cases h with
  | itself => exact ⟨word, written⟩
  | @numbered n =>
    rw [written.dropRaw]
    exact ⟨_, .plain (isPlainIdentifier_numbered written.isPlainName n)⟩

end IsFresh

theorem length_freshNames (taken bases : List String) :
    (freshNames taken bases).length = bases.length := by
  induction bases generalizing taken with
  | nil => rfl
  | cons base rest ih => simp [freshNames, ih]

/-- Names that are given one after another are distinct and avoid those that were taken. -/
theorem freshNames_apart (taken bases : List String) :
    (freshNames taken bases).Nodup ∧
      ∀ name ∈ freshNames taken bases, name ∉ taken ∧ ∃ word, WrittenAs word name := by
  induction bases generalizing taken with
  | nil => exact ⟨.nil, by simp [freshNames]⟩
  | cons base rest ih =>
    have first := isFresh_freshName taken base
    obtain ⟨distinct, apart⟩ := ih (freshName taken base :: taken)
    rw [freshNames]
    constructor
    · refine List.nodup_cons.mpr ⟨fun again => ?_, distinct⟩
      exact (apart _ again).1 List.mem_cons_self
    · intro name mem
      rcases List.mem_cons.mp mem with rfl | later
      · exact ⟨first.free, first.written⟩
      · obtain ⟨free, written⟩ := apart name later
        exact ⟨fun clash => free (List.mem_cons_of_mem _ clash), written⟩

/-! ### Lines that bind a name -/

/-- How a line of a stub that binds a name begins. -/
def bindingMark : String :=
  "    let "

/-- The name that a line of a stub binds, if it binds one: a lone underscore is no name. -/
def boundName? (line : String) : Option String :=
  if bindingMark.toList <+: line.toList then
    let name := String.ofList <|
      (line.toList.drop bindingMark.length).takeWhile fun c => c != ':' && c != ' '
    if name = "_" then none else some name
  else none

theorem boundName?_of_mark {name : String} (rest : String)
    (apart : ∀ c ∈ name.toList, c ≠ ':' ∧ c ≠ ' ') {c : Char} {others : List Char}
    (ends : rest.toList = c :: others) (mark : c = ':' ∨ c = ' ') :
    boundName? (bindingMark ++ (name ++ rest)) = if name = "_" then none else some name := by
  have spelt : (bindingMark ++ (name ++ rest)).toList =
      bindingMark.toList ++ (name.toList ++ c :: others) := by
    rw [String.toList_append, String.toList_append, ends]
  have whole : (name.toList ++ c :: others).takeWhile (fun c => c != ':' && c != ' ') =
      name.toList := by
    rw [List.takeWhile_append_of_pos fun c mem => by simp [apart c mem]]
    rcases mark with rfl | rfl
    · simp
    · simp
  unfold boundName?
  rw [spelt, if_pos (List.prefix_append _ _), ← String.length_toList, List.drop_left, whole,
    String.ofList_toList]

theorem boundName?_of_written {word name : String} (written : WrittenAs word name)
    (rest : String) {c : Char} {others : List Char} (ends : rest.toList = c :: others)
    (mark : c = ':' ∨ c = ' ') :
    boundName? (bindingMark ++ (name ++ rest)) = some name := by
  have letters : ∀ c ∈ name.toList, c ≠ ':' ∧ c ≠ ' ' := by
    have names : ∀ c ∈ word.toList, c ≠ ':' ∧ c ≠ ' ' := by
      intro c mem
      have letter := written.characters c mem
      constructor
      · rintro rfl
        simp at letter
      · rintro rfl
        simp at letter
    cases written with
    | plain => exact names
    | raw => simpa using names
  have notLone : name ≠ "_" := by
    cases written with
    | plain plain => exact plain.notLone
    | raw =>
      intro same
      have mark := congrArg String.toList same
      simp at mark
  rw [boundName?_of_mark rest letters ends mark, if_neg notLone]

/-- A line that begins in another way binds nothing. -/
theorem boundName?_of_apart (start : String) (apart : ¬ start.toList <+: bindingMark.toList)
    (apart' : ¬ bindingMark.toList <+: start.toList) (rest : String) :
    boundName? (start ++ rest) = none := by
  refine if_neg fun marked => ?_
  have begins : start.toList <+: (start ++ rest).toList := by
    rw [String.toList_append]
    exact List.prefix_append _ _
  rcases List.prefix_or_prefix_of_prefix begins marked with before | before
  · exact apart before
  · exact apart' before

/-! ### The names of a stub -/

namespace Stub

theorem slots_eq (rule : Arity) :
    slots rule = (List.range rule.fixedSlots).map fun i => "arg" ++ toString i :=
  rfl

/-- The name of a word is a plain identifier, and not the name of a parameter. -/
theorem slot_cases {rule : Arity} {name : String} (mem : name ∈ slots rule) :
    WrittenAs name name ∧ name ∉ parameters := by
  rw [slots_eq] at mem
  obtain ⟨i, -, rfl⟩ := List.mem_map.mp mem
  refine ⟨.plain (isPlainIdentifier_numbered (by decide) i), fun parameter => ?_⟩
  rcases List.mem_pair.mp parameter with same | same
  · exact ne_numbered (by simp) "arg" i same
  · exact ne_numbered (by simp) "arg" i same

theorem nodup_slots (rule : Arity) : (slots rule).Nodup := by
  rw [slots_eq]
  exact List.nodup_range.map (numbered_injective "arg")

theorem targets_of_ofSpec {spec : HandlerSpec} {stub : Stub} (made : ofSpec spec = .ok stub) :
    stub.reads.map FlagRead.target = freshNames (slots stub.arity ++ parameters)
      (spec.flags.map fun flag => camelCase flag.name) := by
  simp only [ofSpec, bind_eq_ok_iff, pure_eq_ok_iff] at made
  obtain ⟨name, -, rule, -, kinds, typed, rfl⟩ := made
  have lengths := (mapM_eq_ok_iff.mp typed).length_eq
  generalize named : freshNames _ _ = targets
  have length := congrArg List.length named
  rw [length_freshNames, List.length_map] at length
  rw [List.map_map]
  -- the name that a read takes is the first part of what it is made from
  refine (?_ : List.map Prod.fst (targets.zip _) = targets)
  refine List.map_fst_zip ?_
  rw [List.length_zip]
  omega

/-- The local names of a stub are distinct, none is that of a parameter, and each can be written. -/
theorem locals_of_ofSpec {spec : HandlerSpec} {stub : Stub} (made : ofSpec spec = .ok stub) :
    stub.locals.Nodup ∧
      ∀ name ∈ stub.locals, name ∉ parameters ∧ ∃ word, WrittenAs word name := by
  obtain ⟨distinct, apart⟩ := freshNames_apart (slots stub.arity ++ parameters)
    (spec.flags.map fun flag => camelCase flag.name)
  rw [locals, targets_of_ofSpec made]
  constructor
  · refine List.nodup_append.mpr ⟨distinct, nodup_slots _, fun name fresh slot word => ?_⟩
    rintro rfl
    exact (apart name fresh).1 (List.mem_append_left _ word)
  · intro name mem
    rcases List.mem_append.mp mem with fresh | word
    · obtain ⟨free, written⟩ := apart name fresh
      exact ⟨fun parameter => free (List.mem_append_right _ parameter), written⟩
    · obtain ⟨written, free⟩ := slot_cases word
      exact ⟨free, name, written⟩

/-- The line that reads a flag binds the name of the flag. -/
theorem boundName?_read {word target : String} (written : WrittenAs word target)
    (type method flag : String) :
    boundName? s!"    let {target}: {type} = ctx.{method}({flag})?;" = some target := by
  have spelt : s!"    let {target}: {type} = ctx.{method}({flag})?;" =
      bindingMark ++ (target ++ (": " ++ type ++ " = ctx." ++ method ++ "(" ++ flag ++ ")?;")) := by
    simp only [String.append_assoc]
    rfl
  rw [spelt]
  exact boundName?_of_written written _ (by simp; rfl) (.inl rfl)

/-- The line that reads a word binds the name of the word. -/
theorem boundName?_slot {word slot : String} (written : WrittenAs word slot) (i : Nat) :
    boundName? s!"    let {slot} = args[{i}].as_str();" = some slot := by
  have spelt : s!"    let {slot} = args[{i}].as_str();" =
      bindingMark ++ (slot ++ (" = args[" ++ toString i ++ "].as_str();")) := by
    simp only [String.append_assoc]
    rfl
  rw [spelt]
  exact boundName?_of_written written _ (by simp; rfl) (.inr rfl)

/-- A line that drops a value binds no name. -/
theorem boundName?_drop (name : String) : boundName? s!"    let _ = {name};" = none := by
  have spelt : s!"    let _ = {name};" = bindingMark ++ ("_" ++ (" = " ++ name ++ ";")) := by
    simp only [String.append_assoc]
    rfl
  have lone : ∀ c ∈ "_".toList, c ≠ ':' ∧ c ≠ ' ' := by
    simp
  rw [spelt, boundName?_of_mark _ lone (by simp; rfl) (.inr rfl)]
  rfl

theorem boundNames_map {α : Type} {items : List α} (line name : α → String)
    (binds : ∀ item ∈ items, boundName? (line item) = some (name item)) :
    (items.map line).filterMap boundName? = items.map name := by
  rw [List.filterMap_map, ← List.filterMap_eq_map]
  exact List.filterMap_congr binds

/-- The lines of a stub bind its local names, in order, and no others. -/
theorem boundNames_lines {stub : Stub}
    (written : ∀ name ∈ stub.locals, ∃ word, WrittenAs word name) :
    stub.lines.filterMap boundName? = stub.locals := by
  have ofDrops : (stub.locals.map fun name => s!"    let _ = {name};").filterMap boundName? =
      [] := by
    rw [List.filterMap_map, List.filterMap_eq_nil_iff]
    intro name _
    exact boundName?_drop name
  have doc : boundName? s!"/// {stub.summary}" = none :=
    boundName?_of_apart "/// " (by decide) (by decide) _
  have signature : boundName?
      s!"pub fn {stub.name}(ctx: &Invocation<'_>, args: &[String]) -> HandlerResult \x7b" =
        none := by
    rw [String.append_assoc]
    exact boundName?_of_apart "pub fn " (by decide) (by decide) _
  have arity : boundName? s!"    // {arityComment stub.arity}" = none :=
    boundName?_of_apart "    // " (by decide) (by decide) _
  have todo : boundName? s!"    // TODO: implement `{stub.path}`" = none := by
    rw [String.append_assoc]
    exact boundName?_of_apart "    // TODO: implement `" (by decide) (by decide) _
  have closed : ∀ line ∈ ["", "    let _ = ctx;", "    let _ = args;", "    Ok(())", "\x7d"],
      boundName? line = none := by
    decide +kernel
  simp only [List.forall_mem_cons, List.not_mem_nil, false_implies, implies_true,
    and_true] at closed
  obtain ⟨blank, ctx, args, result, brace⟩ := closed
  simp only [lines, List.filterMap_append, ofDrops, doc, signature, arity, todo,
    apply_ite (List.filterMap boundName?), List.filterMap_cons, List.filterMap_nil, blank, ctx,
    args, result, brace, ite_self, List.append_nil, List.nil_append]
  rw [boundNames_map _ FlagRead.target, boundNames_map _ Prod.fst, List.zipIdx_map_fst]
  · rfl
  · rintro ⟨slot, i⟩ mem
    obtain ⟨plain, -⟩ := slot_cases (List.fst_mem_of_mem_zipIdx mem)
    exact boundName?_slot plain i
  · intro read mem
    obtain ⟨word, target⟩ := written read.target
      (List.mem_append_left _ (List.mem_map_of_mem mem))
    exact boundName?_read target _ _ _

end Stub

end ToolTree.Source
