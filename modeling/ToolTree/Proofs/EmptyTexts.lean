import ToolTree.Decl.Schema
import ToolTree.Proofs.WellFormed

/-!
Empty texts in a valid declaration.

`ToolDecl.Emptied` takes the text away that stands under one documented key somewhere in a tool.
Whether the tool stays valid depends on the structure and the key alone: the texts of `neededTexts`
may not be missing, and every other may. A text counts for the command that it is declared in and,
as far as it gives the command its name, for those beside it; so the emptied command decides, and
the way down to it is followed by induction (`ToolDecl.Emptied.wellFormed_iff`).

The table of documented keys marks the needed texts, and one more: the kind of a rule on words,
which may be left empty (`kind_of_stage`).
-/

namespace ToolTree

/-! ### Documented texts -/

/-- A text of a structure by its key, and the structure without it. -/
structure TextPart (α : Type) where
  key : String
  emptied : α → α

/-- The texts of a rule on words. -/
def ArgsDecl.textParts : List (TextPart ArgsDecl) :=
  [⟨"type", fun args => { args with kind := "" }⟩]

/-- The texts of a flag. -/
def FlagDecl.textParts : List (TextPart FlagDecl) := [
  ⟨"name", fun flag => { flag with name := "" }⟩,
  ⟨"shorthand", fun flag => { flag with shorthand := "" }⟩,
  ⟨"type", fun flag => { flag with kind := "" }⟩,
  ⟨"default", fun flag => { flag with defaultText := "" }⟩,
  ⟨"usage", fun flag => { flag with usage := "" }⟩]

/-- The texts of a command. -/
def CommandFields.textParts : List (TextPart CommandFields) := [
  ⟨"use", fun command => { command with useLine := "" }⟩,
  ⟨"short", fun command => { command with summary := "" }⟩,
  ⟨"long", fun command => { command with details := "" }⟩,
  ⟨"run_func", fun command => { command with handler := "" }⟩]

/-- The texts of a tool. -/
def ToolDecl.textParts : List (TextPart ToolDecl) := [
  ⟨"name", fun tool => { tool with name := "" }⟩,
  ⟨"description", fun tool => { tool with description := "" }⟩,
  ⟨"version", fun tool => { tool with version := "" }⟩]

/-- The keys of a structure that are documented as texts. -/
def Schema.textKeys (owner : String) : List String :=
  ((fieldsOf owner).filter fun field => field.type == "String").map Field.key

/-- Every documented text is one of these, and the other way round. -/
theorem textKeys_eq :
    ToolDecl.textParts.map TextPart.key = Schema.textKeys "ToolConfig" ∧
      CommandFields.textParts.map TextPart.key = Schema.textKeys "CommandConfig" ∧
      ArgsDecl.textParts.map TextPart.key = Schema.textKeys "ArgsConfig" ∧
      FlagDecl.textParts.map TextPart.key = Schema.textKeys "FlagConfig" := by
  decide +kernel

/-! ### Declarations with a text less -/

/-- Of the second command the text is empty that stands under a key of a structure in the first: the
command itself, its rule on words or one of its flags. -/
inductive CommandFields.Emptied (command : CommandFields) :
    String → String → CommandFields → Prop where
  | own {part : TextPart CommandFields} : part ∈ CommandFields.textParts →
      Emptied command "CommandConfig" part.key (part.emptied command)
  | args {args : ArgsDecl} {part : TextPart ArgsDecl} : command.args = some args →
      part ∈ ArgsDecl.textParts →
      Emptied command "ArgsConfig" part.key { command with args := some (part.emptied args) }
  | flag {before after : List FlagDecl} {flag : FlagDecl} {part : TextPart FlagDecl} :
      command.flags = before ++ flag :: after → part ∈ FlagDecl.textParts →
      Emptied command "FlagConfig" part.key
        { command with flags := before ++ part.emptied flag :: after }

/-- The same, for a command with those below it, at any depth. -/
inductive CommandDecl.Emptied (owner key : String) : CommandDecl → CommandDecl → Prop where
  | here {fields fields' : CommandFields} {commands : List (String × CommandDecl)} :
      fields.Emptied owner key fields' → Emptied owner key ⟨fields, commands⟩ ⟨fields', commands⟩
  | down {fields : CommandFields} {before after : List (String × CommandDecl)} {name : String}
      {child child' : CommandDecl} : Emptied owner key child child' →
      Emptied owner key ⟨fields, before ++ (name, child) :: after⟩
        ⟨fields, before ++ (name, child') :: after⟩

/-- The same, for a tool. -/
inductive ToolDecl.Emptied (tool : ToolDecl) : String → String → ToolDecl → Prop where
  | own {part : TextPart ToolDecl} : part ∈ ToolDecl.textParts →
      Emptied tool "ToolConfig" part.key (part.emptied tool)
  | root {owner key : String} {root : CommandDecl} : CommandDecl.Emptied owner key tool.root root →
      Emptied tool owner key { tool with root }
  | down {owner key : String} {before after : List (String × CommandDecl)} {name : String}
      {child child' : CommandDecl} : tool.commands = before ++ (name, child) :: after →
      CommandDecl.Emptied owner key child child' →
      Emptied tool owner key { tool with commands := before ++ (name, child') :: after }

/-! ### Needed texts -/

/-- The texts that no valid declaration leaves empty, by structure and key. -/
def neededTexts : List (String × String) := [
  ("ToolConfig", "name"),
  ("CommandConfig", "use"), ("CommandConfig", "short"),
  ("FlagConfig", "name"), ("FlagConfig", "type"), ("FlagConfig", "usage")]

/-- The table marks these texts, and the kind of a rule on words. -/
theorem required_iff : ∀ field ∈ Schema.fields, field.type = "String" →
    (field.required = true ↔ (field.owner, field.key) ∈ neededTexts ∨
      (field.owner, field.key) = ("ArgsConfig", "type")) := by
  decide +kernel

theorem FlagDecl.WellFormed.emptied_iff {flag : FlagDecl} (h : flag.WellFormed)
    {part : TextPart FlagDecl} (mem : part ∈ textParts) :
    (part.emptied flag).WellFormed ↔ ("FlagConfig", part.key) ∉ neededTexts := by
  simp only [textParts, List.mem_cons, List.not_mem_nil, or_false] at mem
  rcases mem with rfl | rfl | rfl | rfl | rfl
  · exact iff_of_false (fun wf => wf.named rfl) (by decide)
  · exact iff_of_true ⟨h.named, h.typed, h.explained, Nat.zero_le 1⟩ (by decide)
  · refine iff_of_false (fun wf => ?_) (by decide)
    obtain ⟨kind, spelt⟩ := wf.typed
    exact kind.spelling_ne_empty spelt.symm
  · exact iff_of_true ⟨h.named, h.typed, h.explained, h.short⟩ (by decide)
  · exact iff_of_false (fun wf => wf.explained rfl) (by decide)

/-- A flag without a text that is not needed keeps its name, and has its shorthand or none. -/
theorem FlagDecl.words_of_emptied (flag : FlagDecl) {part : TextPart FlagDecl}
    (mem : part ∈ textParts) (kept : ("FlagConfig", part.key) ∉ neededTexts) :
    (part.emptied flag).name = flag.name ∧
      ((part.emptied flag).shorthand = flag.shorthand ∨ (part.emptied flag).shorthand = "") := by
  simp only [textParts, List.mem_cons, List.not_mem_nil, or_false] at mem
  rcases mem with rfl | rfl | rfl | rfl | rfl
  · exact absurd (by decide) kept
  · exact ⟨rfl, .inr rfl⟩
  · exact ⟨rfl, .inl rfl⟩
  · exact ⟨rfl, .inl rfl⟩
  · exact ⟨rfl, .inl rfl⟩

/-- Words stay distinct when one of them is left empty. -/
theorem nodup_filter_of_emptied {before after : List String} {word word' : String}
    (less : word' = word ∨ word' = "")
    (distinct : ((before ++ word :: after).filter (· ≠ "")).Nodup) :
    ((before ++ word' :: after).filter (· ≠ "")).Nodup := by
  rcases less with rfl | rfl
  · exact distinct
  · rw [List.filter_append, List.filter_cons_of_neg (by simp), ← List.filter_append]
    exact distinct.sublist (((List.sublist_cons_self _ _).append_left _).filter _)

namespace CommandFields

variable {command command' : CommandFields} {owner key : String}

/-- A command stays well formed exactly if the text it lacks is not needed. -/
theorem Emptied.wellFormed_iff (emptied : command.Emptied owner key command')
    (wf : command.WellFormed) : command'.WellFormed ↔ (owner, key) ∉ neededTexts := by
  cases emptied with
  | own mem =>
    simp only [textParts, List.mem_cons, List.not_mem_nil, or_false] at mem
    rcases mem with rfl | rfl | rfl | rfl
    · exact iff_of_false (fun wf' => wf'.used rfl) (by decide)
    · exact iff_of_false (fun wf' => wf'.summarized rfl) (by decide)
    · exact iff_of_true { wf with } (by decide)
    · exact iff_of_true { wf with } (by decide)
  | args declared mem =>
    rw [ArgsDecl.textParts, List.mem_singleton] at mem
    subst mem
    refine iff_of_true { wf with args := ?_ } (by decide)
    rintro _ ⟨⟩ named
    exact absurd rfl named
  | @flag before after flag part split mem =>
    obtain ⟨first, own, rest⟩ : (∀ flag ∈ before, flag.WellFormed) ∧ flag.WellFormed ∧
        ∀ flag ∈ after, flag.WellFormed := by
      have flags := wf.flags
      rwa [split, List.forall_mem_append, List.forall_mem_cons] at flags
    rw [← own.emptied_iff mem]
    refine ⟨fun wf' => wf'.flags _ (by simp), fun own' => ?_⟩
    obtain ⟨name, shorthand⟩ := flag.words_of_emptied mem ((own.emptied_iff mem).mp own')
    have names := wf.names
    have shorthands := wf.shorthands
    rw [split, List.map_append, List.map_cons] at names shorthands
    refine { wf with flags := ?_, names := ?_, shorthands := ?_ }
    · exact List.forall_mem_append.mpr ⟨first, List.forall_mem_cons.mpr ⟨own', rest⟩⟩
    · dsimp only
      rwa [List.map_append, List.map_cons, name]
    · dsimp only
      rw [List.map_append, List.map_cons]
      exact nodup_filter_of_emptied shorthand shorthands

theorem Emptied.nameOr_eq (emptied : command.Emptied owner key command')
    (kept : (owner, key) ∉ neededTexts) (name : String) :
    command'.nameOr name = command.nameOr name := by
  cases emptied with
  | own mem =>
    simp only [textParts, List.mem_cons, List.not_mem_nil, or_false] at mem
    rcases mem with rfl | rfl | rfl | rfl
    · exact absurd (by decide) kept
    · rfl
    · rfl
    · rfl
  | args => rfl
  | flag => rfl

end CommandFields

namespace CommandDecl

variable {c c' : CommandDecl} {owner key : String}

theorem Emptied.nameOr_eq (emptied : Emptied owner key c c')
    (kept : (owner, key) ∉ neededTexts) (name : String) : c'.nameOr name = c.nameOr name := by
  cases emptied with
  | here own => exact own.nameOr_eq kept name
  | down => rfl

/-- A command stays well formed, with all below it, exactly if the text it lacks is not needed. -/
theorem Emptied.wellFormed_iff (emptied : Emptied owner key c c') (wf : c.WellFormed) :
    c'.WellFormed ↔ (owner, key) ∉ neededTexts := by
  induction emptied with
  | here own =>
    rw [CommandDecl.wellFormed_iff] at wf
    rw [CommandDecl.wellFormed_iff, ← own.wellFormed_iff wf.1.1]
    exact ⟨fun wf' => wf'.1.1, fun own' => ⟨⟨own', wf.1.2⟩, wf.2⟩⟩
  | @down fields before after name child child' emptied ih =>
    obtain ⟨⟨own, distinct⟩, all⟩ := CommandDecl.wellFormed_iff.mp wf
    rw [CommandDecl.wellFormed_iff, ← ih (all name child (by simp))]
    refine ⟨fun wf' => wf'.2 name child' (by simp), fun child'Fits => ⟨⟨own, ?_⟩, ?_⟩⟩
    · have kept := (ih (all name child (by simp))).mp child'Fits
      rw [siblingNames_append_cons] at distinct ⊢
      rwa [emptied.nameOr_eq kept]
    · intro other command mem
      rcases List.mem_append.mp mem with mem | mem
      · exact all other command (List.mem_append_left _ mem)
      · rcases List.mem_cons.mp mem with same | mem
        · cases same
          exact child'Fits
        · exact all other command (by simp [mem])

end CommandDecl

/-- A tool stays well formed exactly if the text it lacks is not needed. -/
theorem ToolDecl.Emptied.wellFormed_iff {tool tool' : ToolDecl} {owner key : String}
    (emptied : tool.Emptied owner key tool') (wf : tool.WellFormed) :
    tool'.WellFormed ↔ (owner, key) ∉ neededTexts := by
  cases emptied with
  | own mem =>
    simp only [textParts, List.mem_cons, List.not_mem_nil, or_false] at mem
    rcases mem with rfl | rfl | rfl
    · exact iff_of_false (fun wf' => wf'.named rfl) (by decide)
    · exact iff_of_true ⟨wf.named, wf.flatRoot, wf.commands⟩ (by decide)
    · exact iff_of_true ⟨wf.named, wf.flatRoot, wf.commands⟩ (by decide)
  | @root _ _ root emptied =>
    obtain ⟨name, description, version, ⟨fields, commands⟩, below⟩ := tool
    obtain ⟨named, flatRoot, tree⟩ := wf
    dsimp only at named flatRoot emptied
    subst flatRoot
    generalize top : CommandDecl.mk fields [] = c at emptied
    cases emptied with
    | here own =>
      cases top
      have fits := (CommandDecl.Emptied.here own).wellFormed_iff tree
      exact ⟨fun wf' => fits.mp wf'.commands, fun kept => ⟨named, rfl, fits.mpr kept⟩⟩
    | down =>
      have none := congrArg CommandDecl.commands top
      simp at none
  | @down _ _ before after name child child' split emptied =>
    have tree : tool.tree.WellFormed := wf.commands
    rw [ToolDecl.tree, split] at tree
    have fits := (CommandDecl.Emptied.down emptied).wellFormed_iff tree
    exact ⟨fun wf' => fits.mp wf'.commands, fun kept => ⟨wf.named, wf.flatRoot, fits.mpr kept⟩⟩

/-- In a valid tool, take away a text that is documented, wherever it stands. The tool stays valid
exactly if the table does not mark the text as required, or the text is the kind of a rule on
words, which the table marks though it may be left empty. -/
theorem valid_of_emptied_iff {tool tool' : ToolDecl} (valid : tool.Valid) {field : Schema.Field}
    (documented : field ∈ Schema.fields) (text : field.type = "String")
    (emptied : tool.Emptied field.owner field.key tool') :
    tool'.Valid ↔ field.required = false ∨ field.owner = "ArgsConfig" ∧ field.key = "type" := by
  have wellFormed := ToolDecl.problems_eq_nil_iff.mp valid
  rw [ToolDecl.Valid, ToolDecl.problems_eq_nil_iff, emptied.wellFormed_iff wellFormed,
    ← Bool.not_eq_true, required_iff field documented text, Prod.mk.injEq]
  have apart : ("ArgsConfig", "type") ∉ neededTexts := by decide
  by_cases rule : field.owner = "ArgsConfig" ∧ field.key = "type"
  · simp [rule, apart]
  · simp [rule]

/-- The documented kind of a rule on words. -/
def kindField : Schema.Field where
  owner := "ArgsConfig"
  key := "type"
  type := "String"
  required := true
  description := "Validation type (none, any, exact, min, max, range)"

/-- The documented usage text of a flag. -/
def usageField : Schema.Field where
  owner := "FlagConfig"
  key := "usage"
  type := "String"
  required := true
  description := "Description shown in help"

/-- A command that has a rule on words, of some kind, and a flag with some usage text. -/
def lightCommand (kind usage : String) : CommandFields where
  useLine := "light <lamp>"
  summary := "Light a lamp"
  args := some { kind, count := 1 }
  flags := [{ name := "dim", shorthand := "d", kind := "bool", usage }]

/-- A tool with this command. -/
def stageTool (kind usage : String) : ToolDecl where
  name := "stage"
  root := { useLine := "stage", summary := "Set a stage" }
  commands := [("light", ⟨lightCommand kind usage, []⟩)]

theorem emptied_stage {kind usage kind' usage' owner key : String}
    (own : (lightCommand kind usage).Emptied owner key (lightCommand kind' usage')) :
    (stageTool kind usage).Emptied owner key (stageTool kind' usage') := by
  have only : (stageTool kind usage).commands =
      [] ++ ("light", ⟨lightCommand kind usage, []⟩) :: [] := rfl
  exact .down only (.here own)

theorem emptied_kind_stage (kind usage : String) :
    (stageTool kind usage).Emptied kindField.owner kindField.key (stageTool "" usage) := by
  have declared : (lightCommand kind usage).args = some { kind, count := 1 } := rfl
  have own := CommandFields.Emptied.args declared (List.mem_singleton_self _)
  exact emptied_stage own

theorem emptied_usage_stage (kind usage : String) :
    (stageTool kind usage).Emptied usageField.owner usageField.key (stageTool kind "") := by
  have part : ⟨"usage", fun flag => { flag with usage := "" }⟩ ∈ FlagDecl.textParts := by
    simp [FlagDecl.textParts]
  have only : (lightCommand kind usage).flags =
      [] ++ { name := "dim", shorthand := "d", kind := "bool", usage } :: [] := rfl
  have own := CommandFields.Emptied.flag only part
  exact emptied_stage own

/-- Without its usage text the flag is refused; without its kind the rule is not. -/
theorem valid_of_emptied_iff_stage :
    (stageTool "exact" "Dim it").Valid ∧
    (usageField ∈ Schema.fields ∧ usageField.type = "String" ∧
      (stageTool "exact" "Dim it").Emptied usageField.owner usageField.key (stageTool "exact" "") ∧
      ¬ (stageTool "exact" "").Valid) ∧
    kindField ∈ Schema.fields ∧ kindField.type = "String" ∧
      (stageTool "exact" "Dim it").Emptied kindField.owner kindField.key
        (stageTool "" "Dim it") ∧
      (stageTool "" "Dim it").Valid := by
  have valid : (stageTool "exact" "Dim it").Valid := by rfl
  have usage : usageField ∈ Schema.fields := by decide
  have kind : kindField ∈ Schema.fields := by decide
  have emptied := emptied_usage_stage "exact" "Dim it"
  have emptied' := emptied_kind_stage "exact" "Dim it"
  refine ⟨valid, ⟨usage, rfl, emptied, fun valid' => ?_⟩, kind, rfl, emptied',
    (valid_of_emptied_iff valid kind rfl emptied').mpr (.inr ⟨rfl, rfl⟩)⟩
  exact absurd ((valid_of_emptied_iff valid usage rfl emptied).mp valid') (by decide)

/-- The table marks the kind of a rule as required, but a valid tool stays valid without it. -/
theorem kind_of_stage :
    kindField ∈ Schema.fields ∧ kindField.type = "String" ∧ kindField.required = true ∧
      (stageTool "exact" "Dim it").Valid ∧
      (stageTool "exact" "Dim it").Emptied kindField.owner kindField.key
        (stageTool "" "Dim it") ∧
      (stageTool "" "Dim it").problems = [] :=
  ⟨by decide, rfl, rfl, by rfl, emptied_kind_stage .., by rfl⟩

end ToolTree
