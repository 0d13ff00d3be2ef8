import ToolTree.Decl.Codec
import ToolTree.Proofs.Walking

/-!
Declarations written as values and read back.

A declaration is `Storable` when its maps of commands are in order of their keys and its bounds
have 64 bits. What is read is always storable (`storable_of_ofValue?`), and a storable declaration
is read back from what is written of it (`ofValue?_toValue`): each part that writing leaves out is
the one that reading puts where nothing stands. So exactly the storable declarations survive
(`written_and_read`). What is written is `Sparse`: a part that says nothing stands in it only where
its key is compulsory.
-/

namespace ToolTree

open Value (field?)

/-! ### Entries -/

namespace Value

theorem field?_append (key : String) (entries more : List (String × Value)) :
    field? key (entries ++ more) = (field? key entries).or (field? key more) := by
  induction entries with
  | nil => rfl
  | cons entry rest ih =>
    obtain ⟨k, v⟩ := entry
    rw [List.cons_append, field?, field?]
    by_cases same : k = key
    · rw [if_pos same, if_pos same, Option.some_or]
    · rw [if_neg same, if_neg same, ih]

end Value

@[simp] theorem field?_textEntry (key k s : String) :
    field? key (textEntry k s) = if k = key ∧ s ≠ "" then some (.text s) else none := by
  by_cases empty : s = "" <;> simp [textEntry, field?, empty]

@[simp] theorem field?_intEntry (key k : String) (n : Int) :
    field? key (intEntry k n) = if k = key ∧ n ≠ 0 then some (.int n) else none := by
  by_cases zero : n = 0 <;> simp [intEntry, field?, zero]

@[simp] theorem field?_boolEntry (key k : String) (b : Bool) :
    field? key (boolEntry k b) = if k = key ∧ b then some (.bool true) else none := by
  cases b <;> simp [boolEntry, field?]

@[simp] theorem field?_listEntry (key k : String) (items : List Value) :
    field? key (listEntry k items) =
      if k = key ∧ items ≠ [] then some (.list items) else none := by
  cases items <;> simp [listEntry, field?]

@[simp] theorem field?_mapEntry (key k : String) (entries : List (String × Value)) :
    field? key (mapEntry k entries) =
      if k = key ∧ entries ≠ [] then some (.map entries) else none := by
  cases entries <;> simp [mapEntry, field?]

section Reading

variable {entries : List (String × Value)} {key : String}

theorem readText_of_written {s : String} (h : field? key entries = some (.text s)) :
    readText entries key = some s := by
  simp [readText, h]

theorem readText_of_entry {s : String}
    (h : field? key entries = if s ≠ "" then some (.text s) else none) :
    readText entries key = some s := by
  by_cases empty : s = "" <;> simp [readText, h, empty]

theorem readInt_of_entry {n : Int} (fits : Text.inInt64 n = true)
    (h : field? key entries = if n ≠ 0 then some (.int n) else none) :
    readInt entries key = some n := by
  by_cases zero : n = 0 <;> simp [readInt, h, zero, fits]

theorem readBool_of_entry {b : Bool}
    (h : field? key entries = if b then some (.bool true) else none) :
    readBool entries key = some b := by
  cases b <;> simp [readBool, h]

theorem mapM_of_each {α : Type} {item : Value → Option α} {write : α → Value}
    (each : ∀ a, item (write a) = some a) (as : List α) : (as.map write).mapM item = some as := by
  induction as with
  | nil => rfl
  | cons a rest ih => simp [each, ih]

/-- A list is read back when each of its items is. -/
theorem readList_of_entry {α : Type} {item : Value → Option α} {write : α → Value}
    (each : ∀ a, item (write a) = some a) (as : List α)
    (h : field? key entries = if as.map write ≠ [] then some (.list (as.map write)) else none) :
    readList item entries key = some as := by
  have items := mapM_of_each each as
  by_cases empty : as = []
  · simp [readList, h, empty]
  · simp [readList, h, empty, items]

end Reading

/-! ### Rules and flags -/

/-- The bounds of a rule have 64 bits. -/
structure ArgsDecl.Fits (args : ArgsDecl) : Prop where
  count : Text.inInt64 args.count = true
  min : Text.inInt64 args.min = true
  max : Text.inInt64 args.max = true

theorem ArgsDecl.ofValue?_toValue {args : ArgsDecl} (fits : args.Fits) :
    ArgsDecl.ofValue? args.toValue = some args := by
  unfold toValue ofValue?
  dsimp only
  rw [readText_of_written (s := args.kind), readInt_of_entry fits.count,
    readInt_of_entry fits.min, readInt_of_entry fits.max]
  · rfl
  all_goals simp [field?, Value.field?_append]

theorem FlagDecl.ofValue?_toValue (flag : FlagDecl) :
    FlagDecl.ofValue? flag.toValue = some flag := by
  unfold toValue ofValue?
  dsimp only
  rw [readText_of_written (s := flag.name), readText_of_entry (s := flag.shorthand),
    readText_of_written (s := flag.kind), readText_of_entry (s := flag.defaultText),
    readText_of_written (s := flag.usage), readBool_of_entry (b := flag.required),
    readBool_of_entry (b := flag.persistent), readBool_of_entry (b := flag.hidden)]
  · rfl
  all_goals simp [field?, Value.field?_append]

/-! ### Commands -/

theorem readArgs_of_entry {entries : List (String × Value)} {key : String}
    {args? : Option ArgsDecl} (fits : ∀ args, args? = some args → args.Fits)
    (h : field? key entries = args?.map ArgsDecl.toValue) :
    readArgs entries key = some args? := by
  cases args? with
  | none => simp [readArgs, h]
  | some args =>
    have back := ArgsDecl.ofValue?_toValue (fits args rfl)
    unfold readArgs
    rw [h, Option.map_some]
    cases written : args.toValue with
    | map entries =>
      rw [written] at back
      simp [back]
    | _ => simp [ArgsDecl.toValue] at written

theorem asText_text (s : String) : Value.asText (.text s) = some s :=
  rfl

/-- The entries of a command, with what stands behind those of its own. -/
theorem CommandFields.ofEntries?_toEntries {command : CommandFields}
    (fits : ∀ args, command.args = some args → args.Fits) (commands : List (String × Value)) :
    CommandFields.ofEntries? (command.toEntries ++ mapEntry "commands" commands ++
      boolEntry "hidden" command.hidden) = some command := by
  unfold ofEntries? toEntries
  rw [readText_of_written (s := command.useLine),
    readList_of_entry asText_text command.aliases,
    readText_of_written (s := command.summary), readText_of_entry (s := command.details),
    readArgs_of_entry fits, readText_of_entry (s := command.handler),
    readList_of_entry FlagDecl.ofValue?_toValue command.flags,
    readBool_of_entry (b := command.hidden)]
  · rfl
  all_goals
    cases command.args <;> simp [field?, Value.field?_append]

/-- The commands that are read are those under the key for them. -/
theorem nestedCommands_eq (entries : List (String × Value)) :
    nestedCommands entries = match field? "commands" entries with
      | none => some []
      | some value => commandMap value := by
  induction entries with
  | nil => simp [nestedCommands, field?]
  | cons entry rest ih =>
    obtain ⟨key, value⟩ := entry
    by_cases same : key = "commands"
    · simp [nestedCommands, field?, same]
    · simp [nestedCommands, field?, same, ih]

theorem nestedCommands_of_entry {entries : List (String × Value)}
    {commands : List (String × CommandDecl)}
    (back : commandsOfEntries (commandEntries commands) = some commands)
    (h : field? "commands" entries =
      if commandEntries commands ≠ [] then some (.map (commandEntries commands)) else none) :
    nestedCommands entries = some commands := by
  rw [nestedCommands_eq, h]
  cases commands with
  | nil => rfl
  | cons entry rest => simpa [commandEntries, commandMap] using back

theorem Keyed.insert_of_first {α : Type} {key : String} {entries : List (String × α)}
    (first : ∀ k ∈ Keyed.keys entries, key < k) (value : α) :
    Keyed.insert key value entries = (key, value) :: entries := by
  cases entries with
  | nil => rfl
  | cons entry rest =>
    obtain ⟨k, v⟩ := entry
    rw [Keyed.insert, if_pos (first k List.mem_cons_self)]

/-- A map in order of its keys is read back when each of its commands is. -/
theorem commandsOfEntries_commandEntries {commands : List (String × CommandDecl)}
    (sorted : Keyed.Sorted commands)
    (each : ∀ entry ∈ commands, CommandDecl.ofValue? entry.2.toValue = some entry.2) :
    commandsOfEntries (commandEntries commands) = some commands := by
  induction commands with
  | nil => rfl
  | cons entry rest ih =>
    obtain ⟨key, command⟩ := entry
    obtain ⟨first, sorted⟩ := List.pairwise_cons.mp sorted
    obtain ⟨command_eq, others⟩ := List.forall_mem_cons.mp each
    simp [commandEntries, commandsOfEntries, command_eq, ih sorted others,
      Keyed.insert_of_first first]

namespace CommandDecl

/-- Every map of commands in the tree of a command is in order of its keys, and every bound has 64
bits. -/
def Storable (c : CommandDecl) : Prop :=
  ∀ above names d, c.Leads above names d →
    Keyed.Sorted d.commands ∧ ∀ args, d.args = some args → args.Fits

theorem storable_iff {fields : CommandFields} {commands : List (String × CommandDecl)} :
    Storable ⟨fields, commands⟩ ↔
      (Keyed.Sorted commands ∧ ∀ args, fields.args = some args → args.Fits) ∧
        ∀ entry ∈ commands, entry.2.Storable := by
  unfold Storable
  rw [forall_leads_iff (P := fun _ _ d =>
    Keyed.Sorted d.commands ∧ ∀ args, d.args = some args → args.Fits)]
  simp only [Prod.forall]

theorem ofValue?_toValue {c : CommandDecl} (storable : c.Storable) :
    CommandDecl.ofValue? c.toValue = some c := by
  induction c using CommandDecl.induction with
  | step fields commands ih =>
    obtain ⟨⟨sorted, fits⟩, below⟩ := storable_iff.mp storable
    have back := commandsOfEntries_commandEntries sorted fun entry mem =>
      ih entry mem (below entry mem)
    rw [toValue, ofValue?, CommandFields.ofEntries?_toEntries fits, nestedCommands_of_entry back]
    · rfl
    · unfold CommandFields.toEntries
      cases fields.args <;> simp [field?, Value.field?_append]

end CommandDecl

/-! ### Tools -/

/-- A tool that can be stored: so are its root and its commands, and these are in order of their
keys. -/
structure ToolDecl.Storable (tool : ToolDecl) : Prop where
  root : tool.root.Storable
  sorted : Keyed.Sorted tool.commands
  below : ∀ entry ∈ tool.commands, entry.2.Storable

theorem ToolDecl.ofValue?_toValue {tool : ToolDecl} (storable : tool.Storable) :
    ToolDecl.ofValue? tool.toValue = some tool := by
  have back := commandsOfEntries_commandEntries storable.sorted fun entry mem =>
    CommandDecl.ofValue?_toValue (storable.below entry mem)
  unfold toValue ofValue?
  dsimp only
  rw [readText_of_written (s := tool.name), readText_of_entry (s := tool.description),
    readText_of_entry (s := tool.version), readCommand, nestedCommands_of_entry back]
  · simp [field?, Value.field?_append, CommandDecl.ofValue?_toValue storable.root]
  all_goals simp [field?, Value.field?_append]

/-! ### What is read -/

theorem inInt64_of_readInt {entries : List (String × Value)} {key : String} {n : Int}
    (read : readInt entries key = some n) : Text.inInt64 n = true := by
  unfold readInt at read
  split at read
  · cases read
    decide
  · split at read
    · next fits =>
      cases read
      exact fits
    · cases read
  · cases read

theorem ArgsDecl.fits_of_ofValue? {value : Value} {args : ArgsDecl}
    (read : ArgsDecl.ofValue? value = some args) : args.Fits := by
  unfold ofValue? at read
  split at read
  · simp only [Option.bind_eq_bind, Option.bind_eq_some_iff] at read
    obtain ⟨kind, -, count, countRead, min, minRead, max, maxRead, same⟩ := read
    cases same
    exact ⟨inInt64_of_readInt countRead, inInt64_of_readInt minRead, inInt64_of_readInt maxRead⟩
  · cases read

theorem fits_of_readArgs {entries : List (String × Value)} {key : String}
    {args? : Option ArgsDecl} (read : readArgs entries key = some args?) :
    ∀ args, args? = some args → args.Fits := by
  rintro args rfl
  unfold readArgs at read
  split at read
  · cases read
  · cases read
  · obtain ⟨args', read, same⟩ := Option.map_eq_some_iff.mp read
    cases same
    exact ArgsDecl.fits_of_ofValue? read

theorem CommandFields.fits_of_ofEntries? {entries : List (String × Value)}
    {command : CommandFields} (read : CommandFields.ofEntries? entries = some command) :
    ∀ args, command.args = some args → args.Fits := by
  unfold ofEntries? at read
  simp only [Option.bind_eq_bind, Option.bind_eq_some_iff] at read
  obtain ⟨useLine, -, aliases, -, summary, -, details, -, args?, argsRead, handler, -, flags, -,
    hidden, -, same⟩ := read
  cases same
  exact fits_of_readArgs argsRead

/-- Commands that can be stored together. -/
def StorableBelow (commands : List (String × CommandDecl)) : Prop :=
  Keyed.Sorted commands ∧ ∀ entry ∈ commands, entry.2.Storable

theorem storableBelow_insert {key : String} {command : CommandDecl}
    {commands : List (String × CommandDecl)} (first : command.Storable)
    (others : StorableBelow commands) : StorableBelow (Keyed.insert key command commands) :=
  ⟨others.1.insert key command, Keyed.forall_insert first others.2⟩

/-- By the recursion of the reader: a map of commands is put together by insertions, and every bound
is checked. -/
theorem storable_of_read :
    (∀ value c, CommandDecl.ofValue? value = some c → c.Storable) ∧
      (∀ entries commands, nestedCommands entries = some commands → StorableBelow commands) ∧
      (∀ value commands, commandMap value = some commands → StorableBelow commands) ∧
      ∀ entries commands, commandsOfEntries entries = some commands →
        StorableBelow commands := by
  refine CommandDecl.ofValue?.mutual_induct _ _ _ _ ?command ?noCommand ?map ?noMap ?nothing
    ?found ?passed ?done ?entry
  case command =>
    intro entries below c read
    simp only [CommandDecl.ofValue?, Option.bind_eq_bind, Option.bind_eq_some_iff] at read
    obtain ⟨fields, fieldsRead, commands, commandsRead, same⟩ := read
    cases same
    obtain ⟨sorted, each⟩ := below commands commandsRead
    exact CommandDecl.storable_iff.mpr
      ⟨⟨sorted, CommandFields.fits_of_ofEntries? fieldsRead⟩, each⟩
  case noCommand =>
    intro value noMap c read
    rw [CommandDecl.ofValue?] at read
    · cases read
    · exact noMap
  case map =>
    intro entries below commands read
    rw [commandMap] at read
    exact below commands read
  case noMap =>
    intro value noMap commands read
    rw [commandMap] at read
    · cases read
    · exact noMap
  case nothing =>
    intro commands read
    rw [nestedCommands] at read
    cases read
    exact ⟨.nil, by simp⟩
  case found =>
    intro value rest below commands read
    rw [nestedCommands, if_pos rfl] at read
    exact below commands read
  case passed =>
    intro key value rest other below commands read
    rw [nestedCommands, if_neg other] at read
    exact below commands read
  case done =>
    intro commands read
    rw [commandsOfEntries] at read
    cases read
    exact ⟨.nil, by simp⟩
  case entry =>
    intro key value rest first others commands read
    simp only [commandsOfEntries, Option.bind_eq_bind, Option.bind_eq_some_iff] at read
    obtain ⟨command, commandRead, rest', restRead, same⟩ := read
    cases same
    exact storableBelow_insert (first command commandRead) (others rest' restRead)

theorem ToolDecl.storable_of_ofValue? {value : Value} {tool : ToolDecl}
    (read : ToolDecl.ofValue? value = some tool) : tool.Storable := by
  unfold ofValue? at read
  split at read
  · simp only [Option.bind_eq_bind, Option.bind_eq_some_iff] at read
    obtain ⟨name, -, description, -, version, -, root, rootRead, commands, commandsRead, same⟩ :=
      read
    cases same
    obtain ⟨sorted, below⟩ := storable_of_read.2.1 _ _ commandsRead
    refine ⟨?_, sorted, below⟩
    unfold readCommand at rootRead
    split at rootRead
    · cases rootRead
      exact CommandDecl.storable_iff.mpr ⟨⟨.nil, by simp⟩, by simp⟩
    · exact storable_of_read.1 _ _ rootRead
  · cases read

/-! ### What is left out -/

namespace Value

/-- Whether a value says no more than a missing part. -/
def saysNothing : Value → Bool
  | .null => true
  | .bool b => !b
  | .int n => n == 0
  | .text s => s == ""
  | .list items => items.isEmpty
  | .map entries => entries.isEmpty

/-- The keys of a map, in order. -/
def keys : Value → List String
  | .map entries => Keyed.keys entries
  | _ => []

/-- `Within v w`: `v` is `w` or stands in it. -/
inductive Within : Value → Value → Prop where
  | self (v : Value) : Within v v
  | item {v item : Value} {items : List Value} :
      item ∈ items → Within v item → Within v (.list items)
  | entry {v value : Value} {key : String} {entries : List (String × Value)} :
      (key, value) ∈ entries → Within v value → Within v (.map entries)

/-- The keys under which a part is written even if it says nothing. -/
def compulsoryKeys : List String :=
  ["name", "use", "short", "type", "usage"]

/-- Parts that say nothing stand in a value under compulsory keys only. -/
def Sparse (v : Value) : Prop :=
  ∀ entries, Within (.map entries) v → ∀ key value, (key, value) ∈ entries →
    value.saysNothing = true → key ∈ compulsoryKeys

/-- Entries that may stand in a sparse value. -/
def SparseEntries (entries : List (String × Value)) : Prop :=
  ∀ entry ∈ entries, (entry.2.saysNothing = true → entry.1 ∈ compulsoryKeys) ∧ entry.2.Sparse

@[simp] theorem sparseEntries_nil : SparseEntries [] := by
  intro entry mem
  cases mem

@[simp] theorem sparseEntries_append {entries more : List (String × Value)} :
    SparseEntries (entries ++ more) ↔ SparseEntries entries ∧ SparseEntries more :=
  List.forall_mem_append

@[simp] theorem sparseEntries_cons {key : String} {value : Value}
    {entries : List (String × Value)} :
    SparseEntries ((key, value) :: entries) ↔
      ((value.saysNothing = true → key ∈ compulsoryKeys) ∧ value.Sparse) ∧
        SparseEntries entries :=
  List.forall_mem_cons

@[simp] theorem sparse_text (s : String) : (text s).Sparse := by
  rintro entries ⟨⟩

@[simp] theorem sparse_int (n : Int) : (int n).Sparse := by
  rintro entries ⟨⟩

@[simp] theorem sparse_bool (b : Bool) : (bool b).Sparse := by
  rintro entries ⟨⟩

theorem sparse_list {items : List Value} (each : ∀ item ∈ items, item.Sparse) :
    (list items).Sparse := by
  rintro entries (_ | ⟨mem, within⟩)
  exact each _ mem entries within

theorem sparse_map {entries : List (String × Value)} (each : SparseEntries entries) :
    (map entries).Sparse := by
  rintro inner (_ | _ | ⟨mem, within⟩) key value entry nothing
  · exact (each _ entry).1 nothing
  · exact (each _ mem).2 inner within key value entry nothing

end Value

open Value

section Writing

variable (key : String)

@[simp] theorem sparseEntries_textEntry (s : String) : SparseEntries (textEntry key s) := by
  by_cases empty : s = "" <;> simp [textEntry, saysNothing, empty]

@[simp] theorem sparseEntries_intEntry (n : Int) : SparseEntries (intEntry key n) := by
  by_cases zero : n = 0 <;> simp [intEntry, saysNothing, zero]

@[simp] theorem sparseEntries_boolEntry (b : Bool) : SparseEntries (boolEntry key b) := by
  cases b <;> simp [boolEntry, saysNothing]

theorem sparseEntries_listEntry {items : List Value} (each : ∀ item ∈ items, item.Sparse) :
    SparseEntries (listEntry key items) := by
  have sparse := sparse_list each
  cases items <;> simp [listEntry, saysNothing, sparse]

theorem sparseEntries_mapEntry {entries : List (String × Value)} (each : SparseEntries entries) :
    SparseEntries (mapEntry key entries) := by
  have sparse := sparse_map each
  cases entries <;> simp [mapEntry, saysNothing, sparse]

end Writing

theorem ArgsDecl.sparse_toValue (args : ArgsDecl) : args.toValue.Sparse := by
  apply sparse_map
  simp [compulsoryKeys]

theorem FlagDecl.sparse_toValue (flag : FlagDecl) : flag.toValue.Sparse := by
  apply sparse_map
  simp [compulsoryKeys]

theorem CommandFields.sparse_toEntries (command : CommandFields) :
    SparseEntries command.toEntries := by
  have aliases : ∀ item ∈ command.aliases.map Value.text, item.Sparse := by
    simp
  have flags : ∀ item ∈ command.flags.map FlagDecl.toValue, item.Sparse := by
    simp [FlagDecl.sparse_toValue]
  unfold toEntries
  cases command.args with
  | none =>
    simp [compulsoryKeys, sparseEntries_listEntry _ aliases, sparseEntries_listEntry _ flags]
  | some args =>
    have written : args.toValue.saysNothing = false := by
      simp [ArgsDecl.toValue, saysNothing]
    simp [compulsoryKeys, sparseEntries_listEntry _ aliases, sparseEntries_listEntry _ flags,
      written, args.sparse_toValue]

/-- A command always says something. -/
@[simp] theorem CommandDecl.saysNothing_toValue (c : CommandDecl) :
    c.toValue.saysNothing = false := by
  obtain ⟨fields, commands⟩ := c
  simp [CommandDecl.toValue, CommandFields.toEntries, saysNothing]

theorem sparse_commandEntries (commands : List (String × CommandDecl))
    (each : ∀ entry ∈ commands, entry.2.toValue.Sparse) :
    SparseEntries (commandEntries commands) := by
  induction commands with
  | nil => simp [commandEntries]
  | cons entry rest ih =>
    obtain ⟨first, others⟩ := List.forall_mem_cons.mp each
    simp [commandEntries, first, ih others]

theorem CommandDecl.sparse_toValue (c : CommandDecl) : c.toValue.Sparse := by
  induction c using CommandDecl.induction with
  | step fields commands ih =>
    apply sparse_map
    simp [fields.sparse_toEntries, sparseEntries_mapEntry _ (sparse_commandEntries commands ih)]

theorem ToolDecl.sparse_toValue (tool : ToolDecl) : tool.toValue.Sparse := by
  have commands := sparse_commandEntries tool.commands
    fun entry _ => entry.2.sparse_toValue
  apply sparse_map
  simp [compulsoryKeys, tool.root.sparse_toValue, sparseEntries_mapEntry _ commands]

/-- A declaration is what is read from what is written of it exactly when its maps of commands are
in order of their keys and its bounds have 64 bits. What is written has no part that says nothing,
apart from those under the compulsory keys, and these are always there. -/
theorem written_and_read (tool : ToolDecl) :
    (ToolDecl.ofValue? tool.toValue = some tool ↔ tool.Storable) ∧
      tool.toValue.Sparse ∧
      ["name", "root"] ⊆ tool.toValue.keys ∧
      (∀ command : CommandDecl, ["use", "short"] ⊆ command.toValue.keys) ∧
      (∀ args : ArgsDecl, ["type"] ⊆ args.toValue.keys) ∧
      ∀ flag : FlagDecl, ["name", "type", "usage"] ⊆ flag.toValue.keys := by
  refine ⟨⟨ToolDecl.storable_of_ofValue?, ToolDecl.ofValue?_toValue⟩, tool.sparse_toValue,
    ?_, ?_, ?_, ?_⟩
  · simp [ToolDecl.toValue, Value.keys, Keyed.keys]
  · rintro ⟨fields, commands⟩
    simp [CommandDecl.toValue, CommandFields.toEntries, Value.keys, Keyed.keys]
  · intro args
    simp [ArgsDecl.toValue, Value.keys, Keyed.keys]
  · intro flag
    simp [FlagDecl.toValue, Value.keys, Keyed.keys]

end ToolTree
