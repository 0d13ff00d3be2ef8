import ToolTree.Proofs.Requests

/-!
Reading flags inside a function that is called.

What an accessor answers depends on the type that a flag in sight declares and on the values that
its name is set to (`Invocation.access_eq`). The values were given to a flag of that name, in sight
or not (`Descent.declared`), so the accessor of the declared type succeeds unless the values are
those of a flag that is out of sight: a flag of a command above that is not persistent does not
keep a command below from declaring a persistent one of the same name, and what is set there counts
for the persistent one as well. `access_of_called` says when this can happen, and
`lookup_of_beacon` that it does.
-/

namespace ToolTree

open CommandLine (Chain FlagType Payload Setting View)

/-! ### Accessors -/

/-- The name for the type of the values that flags of a type store. -/
def FlagKind.typeName : FlagKind → String
  | .string => Payload.typeName (.texts [])
  | .bool => Payload.typeName (.bool false)
  | .int => Payload.typeName (.int 0)
  | .stringSlice => Payload.typeName (.texts [])

theorem CommandLine.FlagType.Stores.typeName {type : FlagType} {payload : Payload}
    (stores : type.Stores payload) : payload.typeName = type.kind.typeName := by
  cases type with
  | string =>
    cases payload with
    | texts => rfl
    | bool => cases stores
    | int => cases stores
  | bool =>
    cases payload with
    | texts => cases stores
    | bool => rfl
    | int => cases stores
  | int =>
    cases payload with
    | texts => cases stores
    | bool => cases stores
    | int => rfl
  | stringSlice =>
    cases payload with
    | texts => rfl
    | bool => cases stores
    | int => cases stores

namespace Invocation

variable {call : Invocation} {name : String} {kind declared : FlagKind} {e : FlagError}

/-- The answer of the accessor of a type, without the value. -/
def access (call : Invocation) (kind : FlagKind) (name : String) : Except FlagError Unit :=
  match kind with
  | .string => (call.getString name).map fun _ => ()
  | .bool => (call.getBool name).map fun _ => ()
  | .int => (call.getInt name).map fun _ => ()
  | .stringSlice => (call.getStringSlice name).map fun _ => ()

/-- Whether the values of a flag can be read as those of a type. -/
def readAs (name : String) (kind : FlagKind) : Option Payload → Except FlagError Unit
  | none => .ok ()
  | some payload =>
    if payload.typeName = kind.typeName then .ok ()
    else .error (.lookup name payload.typeName kind.typeName)

/-- All accessors are alike: they look the values up and read them as those of their type. -/
theorem access_eq : call.access kind name = call.payload? name kind >>= readAs name kind := by
  cases kind with
  | string =>
    rw [access, getString]
    rcases call.payload? name .string with e | _ | values | value | value <;> rfl
  | bool =>
    rw [access, getBool]
    rcases call.payload? name .bool with e | _ | values | value | value <;> rfl
  | int =>
    rw [access, getInt]
    rcases call.payload? name .int with e | _ | values | value | value <;> rfl
  | stringSlice =>
    rw [access, getStringSlice]
    rcases call.payload? name .stringSlice with e | _ | values | value | value <;> rfl

theorem payload?_of_kindOf (known : call.kindOf name = .ok kind) :
    call.payload? name kind = .ok ((call.setting? name).map Setting.payload) := by
  rw [payload?, known]
  exact if_pos rfl

theorem access_of_error (unknown : call.kindOf name = .error e) :
    call.access kind name = .error e := by
  rw [access_eq, payload?, unknown]
  rfl

theorem access_of_ne (known : call.kindOf name = .ok declared) (other : kind ≠ declared) :
    call.access kind name = .error (.typeMismatch name declared kind) := by
  have refused : call.payload? name kind = .error (.typeMismatch name declared kind) := by
    rw [payload?, known]
    exact if_neg other.symm
  rw [access_eq, refused]
  rfl

/-- The accessor of the declared type fails only on values of another type. -/
theorem access_of_kindOf (known : call.kindOf name = .ok kind) :
    call.access kind name = .ok () ∨ ∃ setting, call.setting? name = some setting ∧
      setting.payload.typeName ≠ kind.typeName ∧
      call.access kind name = .error (.lookup name setting.payload.typeName kind.typeName) := by
  rw [access_eq, payload?_of_kindOf known]
  cases set : call.setting? name with
  | none => exact .inl rfl
  | some setting =>
    by_cases same : setting.payload.typeName = kind.typeName
    · exact .inl (if_pos same)
    · exact .inr ⟨setting, rfl, same, if_neg same⟩

end Invocation

/-! ### Flags in sight and out of sight -/

/-- A persistent flag that a command sees while a command above declares a flag of the same name
that is not persistent and stores values of another type. -/
structure FlagDecl.Shadowed (flag : FlagDecl) (above : List CommandFields)
    (kind found : FlagKind) : Prop where
  persistent : flag.persistent = true
  shadow : ∃ upper ∈ above, ∃ other ∈ upper.flags, other.name = flag.name ∧
    other.persistent = false ∧ other.flagKind = .ok found
  differs : found.typeName ≠ kind.typeName

/-- What the accessors answer for a flag in sight of a command below some others. -/
structure FlagDecl.Answered (flag : FlagDecl) (above : List CommandFields) (kind : FlagKind)
    (call : Invocation) : Prop where
  typed : flag.flagKind = .ok kind
  isSet : ∃ set, call.isSet flag.name = .ok set
  own : call.access kind flag.name = .ok () ∨ ∃ found, flag.Shadowed above kind found ∧
    call.access kind flag.name = .error (.lookup flag.name found.typeName kind.typeName)
  others : ∀ other, other ≠ kind →
    call.access other flag.name = .error (.typeMismatch flag.name kind other)

section Called

variable {tool : ToolDecl} {registry : Registry} {tree : Tree}

theorem Descent.answered {above : List CommandFields} {path : String} {c : CommandDecl}
    {view : View} {node : Node} {chain : Chain}
    {between : List CommandFields} {d : CommandDecl} {last : Node}
    (h : Descent registry above path c view node chain between d last)
    (descends : chain.Descends view) {flag : FlagDecl}
    (seen : flag ∈ visibleFlags (above ++ between) d.toCommandFields) :
    ∃ kind, flag.Answered (above ++ between) kind (last.invocation chain) := by
  obtain ⟨kind, typed⟩ := (h.stands.visible_wellFormed flag seen).flagKind
  have known : (last.invocation chain).kindOf flag.name = .ok kind :=
    h.stands.kindOf_of_visible seen typed
  refine ⟨kind, typed, ?_, ?_, fun other ne => Invocation.access_of_ne known ne⟩
  · rw [Invocation.isSet, known]
    exact ⟨_, rfl⟩
  rcases Invocation.access_of_kindOf known with ok | ⟨setting, set, differs, failed⟩
  · exact .inl ok
  obtain ⟨source, type, named, typed', stores, origin⟩ := h.declared descends set
  rw [stores.typeName] at differs failed
  rcases origin with visible | ⟨localOnly, ⟨upper, mem, declared⟩, other, persists, same⟩
  · rw [h.stands.eq_of_name_eq visible seen named, typed] at typed'
    cases typed'
    exact absurd rfl differs
  · have handedDown := h.stands.eq_of_name_eq (mem_visibleFlags_of_persistent persists) seen same
    obtain ⟨-, -, -, persistent⟩ := mem_persistentFlags_iff.mp persists
    refine .inr ⟨type.kind, ⟨handedDown ▸ persistent, ?_, differs⟩, failed⟩
    exact ⟨upper, mem, source, declared, named, localOnly, typed'⟩

/-- What the accessors answer inside a function that is called. For a flag in sight of the selected
command, `isSet` and the accessor of its type succeed and those of the other types tell both types;
for any other name all of them tell that it is unknown. The one exception is the accessor of a
persistent flag while a command above has a flag of that name for itself alone, with values of
another type: it may find those values instead. -/
theorem access_of_called (built : (tool.build registry).result = .ok tree) {argv : List String}
    {call : Call} (called : (tree.run argv).call? = some call) :
    ∃ chain above c, tree.grammar.parse argv = .ok chain ∧
      tool.tree.Leads above chain.names c ∧
      call.invocation.path = pathFrom tool.rootName chain.names ∧
      (∀ flag ∈ visibleFlags above c.toCommandFields,
        ∃ kind, flag.Answered above kind call.invocation) ∧
      ∀ name, (∀ flag ∈ visibleFlags above c.toCommandFields, flag.name ≠ name) →
        call.invocation.isSet name = .error (.unknown call.invocation.path name) ∧
        ∀ kind, call.invocation.access kind name =
          .error (.unknown call.invocation.path name) := by
  obtain ⟨chain, node, binding, selects, rfl⟩ := Tree.selects_of_called called
  obtain ⟨descends, above, c, last, descent⟩ := descent_of_parse built selects.read
  have same := descent.follows
  rw [selects.follows] at same
  cases same
  refine ⟨chain, above, c, selects.read, descent.leads, descent.stands.agrees.path_eq,
    fun flag seen => descent.answered descends seen, fun name unseen => ?_⟩
  have unknown : (node.invocation chain).kindOf name = .error (.unknown node.path name) := by
    cases found : Keyed.find? name node.flags with
    | none => rw [Invocation.kindOf, NodeFields.invocation, found]
    | some kind =>
      obtain ⟨flag, seen, named, -⟩ := (descent.stands.agrees.flags name kind).mp found
      exact absurd named (unseen flag seen)
  refine ⟨?_, fun kind => Invocation.access_of_error unknown⟩
  rw [Invocation.isSet, unknown]
  rfl

end Called

/-- A tool with a flag for its root alone and a persistent one of the same name, but of another
type, on a command below. -/
def beaconTool : ToolDecl where
  name := "beacon"
  root := {
    useLine := "beacon"
    summary := "Run a beacon"
    flags := [FlagDecl.ofKind "mode" .bool "Blink"] }
  commands := [("send", {
    useLine := "send"
    summary := "Send a signal"
    handler := "send"
    flags := [{ FlagDecl.ofKind "mode" .string "How" with persistent := true }] })]

/-- A function for `send`. -/
def beaconRegistry : Registry :=
  .ofList [("send", .handler fun _ _ => .ok ())]

/-- The value that a line gives to `send` is read as one of its own type. -/
theorem access_of_called_beacon :
    ∃ tree call, (beaconTool.build beaconRegistry).result = .ok tree ∧
      (tree.run ["beacon", "send", "--mode=fast"]).call? = some call ∧
      call.invocation.getString "mode" = .ok "fast" ∧
      ∃ above c, ∀ flag ∈ visibleFlags above c,
        ∃ kind, flag.Answered above kind call.invocation := by
  have read : (beaconTool.build beaconRegistry).result.map (fun tree =>
      (tree.run ["beacon", "send", "--mode=fast"]).call?.map fun call =>
        call.invocation.getString "mode") = .ok (some (.ok "fast")) := by rfl
  cases built : (beaconTool.build beaconRegistry).result with
  | error cause =>
    rw [built] at read
    cases read
  | ok tree =>
    rw [built] at read
    obtain ⟨call, called, value⟩ := Option.map_eq_some_iff.mp (Except.ok.inj read)
    obtain ⟨chain, above, c, -, -, -, answered, -⟩ := access_of_called built called
    exact ⟨tree, call, rfl, called, value, above, c.toCommandFields, answered⟩

/-- When the line gives no value to `send`, the default of the flag of the root is found. -/
theorem lookup_of_beacon :
    ∃ tree call, (beaconTool.build beaconRegistry).result = .ok tree ∧
      (tree.run ["beacon", "send"]).call? = some call ∧
      call.invocation.kindOf "mode" = .ok .string ∧
      call.invocation.getString "mode" =
        .error (.lookup "mode" "bool" "alloc::string::String") := by
  have read : (beaconTool.build beaconRegistry).result.map (fun tree =>
      (tree.run ["beacon", "send"]).call?.map fun call =>
        (call.invocation.kindOf "mode", call.invocation.getString "mode")) =
      .ok (some (.ok .string, .error (.lookup "mode" "bool" "alloc::string::String"))) := by rfl
  cases built : (beaconTool.build beaconRegistry).result with
  | error cause =>
    rw [built] at read
    cases read
  | ok tree =>
    rw [built] at read
    obtain ⟨call, called, answers⟩ := Option.map_eq_some_iff.mp (Except.ok.inj read)
    obtain ⟨kind, answer⟩ := Prod.mk.inj answers
    exact ⟨tree, call, rfl, called, kind, answer⟩

end ToolTree
