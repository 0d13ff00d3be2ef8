import ToolTree.Proofs.Access
import ToolTree.Proofs.StubTexts

/-!
What a stub reads, and what the commands that call its function provide.

The code of a stub takes the words that every line of its command has, and calls the accessor of
each flag that the command declares. So it fits the command that it is made for, which is the first
of the walk that has the function (`stub_of_leads`). Another command with the function has to be
served by the same stub: it fits exactly when that command requires no fewer words and sees a flag
of the same name and type for each that the first one declares (`stub_fits_iff`). In a call of a
command that it fits, a stub finds all that it reads (`served_of_called`).
-/

namespace ToolTree

namespace Source

/-! ### What the code of a stub reads -/

/-- The methods of the context that read flags of a type. -/
inductive Accessor : String → FlagKind → Prop where
  | string : Accessor "get_string" .string
  | bool : Accessor "get_bool" .bool
  | int : Accessor "get_int" .int
  | stringSlice : Accessor "get_string_slice" .stringSlice

/-- A call on the context reads a flag as one of a type: the method is the accessor of the type, and
a literal spells the name of the flag. -/
inductive ReadsFlag (name : String) (kind : FlagKind) : List Lexeme → Prop where
  | accessor {method literal : String} : Accessor method kind →
      Text.unquote literal = some name →
      ReadsFlag name kind [.word method, .mark '(', .literal literal]

/-- An indexing takes the word at a position. -/
def TakesWord (i : Nat) (index : List Lexeme) : Prop :=
  index = [.word (toString i)]

/-- A command below some others provides what the code of a stub reads: each word on every line that
the command accepts, and a flag in sight of the name and the type of each accessor. -/
structure Stub.Fits (stub : Stub) (above : List CommandFields) (command : CommandFields) :
    Prop where
  words : ∀ rule, command.arity = .ok rule → ∀ count, rule.Accepts count →
    ∀ index ∈ indexings stub.code, ∃ i < count, TakesWord i index
  flags : ∀ call ∈ contextCalls stub.code, ∃ flag ∈ visibleFlags above command,
    ∃ kind, flag.flagKind = .ok kind ∧ ReadsFlag flag.name kind call

theorem accessor_iff {method : String} {kind : FlagKind} :
    Accessor method kind ↔ method = (accessor kind).1 := by
  constructor
  · intro h
    cases h <;> rfl
  · rintro rfl
    cases kind <;> constructor

theorem accessor_injective {kind other : FlagKind}
    (same : (accessor kind).1 = (accessor other).1) : kind = other := by
  cases kind <;> cases other <;> simp_all [accessor]

/-- The call that reads a flag in a stub reads that flag, as one of its type, and no other. -/
theorem readsFlag_iff {name flag : String} {kind other : FlagKind} :
    ReadsFlag name other [.word (accessor kind).1, .mark '(', .literal (Text.quote flag)] ↔
      name = flag ∧ other = kind := by
  constructor
  · intro h
    cases h with
    | accessor method spelt =>
      rw [Text.unquote_quote, Option.some.injEq] at spelt
      exact ⟨spelt.symm, (accessor_injective (accessor_iff.mp method)).symm⟩
  · rintro ⟨rfl, rfl⟩
    exact .accessor (accessor_iff.mpr rfl) (Text.unquote_quote name)

namespace Stub.Written

variable {stub : Stub} (written : stub.Written)

include written

/-- What fits a stub has the words and the flags that the stub is worked out to read. -/
theorem fits_iff {above : List CommandFields} {command : CommandFields} :
    stub.Fits above command ↔
      (∀ rule, command.arity = .ok rule → ∀ count, rule.Accepts count →
        stub.arity.fixedSlots ≤ count) ∧
      ∀ read ∈ stub.reads, ∃ flag ∈ visibleFlags above command, flag.name = read.flag ∧
        flag.flagKind = .ok read.kind := by
  have indices := written.readsAs_indexings.code
  have calls := written.readsAs_contextCalls.code
  constructor
  · rintro ⟨words, flags⟩
    refine ⟨fun rule resolved count accepted => ?_, fun read mem => ?_⟩
    · refine Nat.le_of_not_lt fun less => ?_
      have mem : [.word (toString count)] ∈ indexings stub.code := by
        rw [indices]
        exact List.mem_map_of_mem (List.mem_range.mpr less)
      obtain ⟨i, inside, same⟩ := words rule resolved count accepted _ mem
      simp only [TakesWord, List.cons.injEq, Lexeme.word.injEq, and_true] at same
      rw [numbered_injective "" (congrArg ("" ++ ·) same)] at inside
      exact Nat.lt_irrefl _ inside
    · have asked : [.word (accessor read.kind).1, .mark '(', .literal (Text.quote read.flag)] ∈
          contextCalls stub.code := by
        rw [calls]
        exact List.mem_map_of_mem mem
      obtain ⟨flag, seen, kind, typed, reads⟩ := flags _ asked
      obtain ⟨same, rfl⟩ := readsFlag_iff.mp reads
      exact ⟨flag, seen, same, typed⟩
  · rintro ⟨words, flags⟩
    refine ⟨fun rule resolved count accepted index mem => ?_, fun call mem => ?_⟩
    · rw [indices] at mem
      obtain ⟨i, inside, rfl⟩ := List.mem_map.mp mem
      have enough := words rule resolved count accepted
      exact ⟨i, Nat.lt_of_lt_of_le (List.mem_range.mp inside) enough, rfl⟩
    · rw [calls] at mem
      obtain ⟨read, listed, rfl⟩ := List.mem_map.mp mem
      obtain ⟨flag, seen, same, typed⟩ := flags read listed
      exact ⟨flag, seen, read.kind, typed, readsFlag_iff.mpr ⟨same, rfl⟩⟩

end Stub.Written

/-! ### What a stub is made for -/

/-- A flag and the line of a stub that reads it. -/
def FlagRead.Reads (read : FlagRead) (flag : FlagDecl) : Prop :=
  read.flag = flag.name ∧ flag.flagKind = .ok read.kind

theorem reads_of_kinds {flags : List FlagDecl} {kinds : List FlagKind}
    (typed : List.Forall₂ (fun flag kind => flag.flagKind = .ok kind) flags kinds)
    {targets : List String} (length : targets.length = flags.length) :
    List.Forall₂ (fun flag (read : FlagRead) => read.Reads flag) flags
      ((targets.zip (flags.zip kinds)).map fun (target, flag, kind) =>
        { target, flag := flag.name, kind }) := by
  induction typed generalizing targets with
  | nil => simp
  | cons kind _ ih =>
    cases targets with
    | nil => simp at length
    | cons target others =>
      simp only [List.length_cons, Nat.add_right_cancel_iff] at length
      simp only [List.zip_cons_cons, List.map_cons]
      exact .cons ⟨rfl, kind⟩ (ih length)

/-- What a stub takes over from the function that it is made for. -/
theorem Stub.takes_of_ofSpec {spec : HandlerSpec} {stub : Stub} (ok : ofSpec spec = .ok stub) :
    stub.path = spec.path ∧ spec.arity = .ok stub.arity ∧
      List.Forall₂ (fun flag (read : FlagRead) => read.Reads flag) spec.flags stub.reads := by
  simp only [ofSpec, bind_eq_ok_iff, pure_eq_ok_iff] at ok
  obtain ⟨name, -, rule, resolved, kinds, typed, rfl⟩ := ok
  refine ⟨rfl, resolved, reads_of_kinds ((mapM_eq_ok_iff.mp typed).imp ?_) ?_⟩
  · intro flag kind typed
    unfold HandlerSpec.flagKind at typed
    split at typed
    · next declared =>
      cases typed
      exact declared
    · cases typed
  · rw [length_freshNames, List.length_map]

end Source

open Source (Stub WrittenAs FlagRead ReadsFlag TakesWord contextCalls definitions indexings)

/-- A command below some others provides what another one does: it requires no fewer words, and for
each flag that the other declares it sees one of the same name and type. -/
structure CommandFields.Provides (command : CommandFields) (above : List CommandFields)
    (other : CommandFields) : Prop where
  words : ∃ rule needed, command.arity = .ok rule ∧ other.arity = .ok needed ∧
    needed.fixedSlots ≤ rule.fixedSlots
  flags : ∀ flag ∈ other.flags, ∃ seen ∈ visibleFlags above command, seen.name = flag.name ∧
    seen.kind = flag.kind

namespace CommandFields.Provides

/-- A command provides what it does itself. -/
theorem refl {command : CommandFields} (wf : command.WellFormed) (above : List CommandFields) :
    command.Provides above command := by
  obtain ⟨rule, resolved⟩ := wf.arity
  refine ⟨⟨rule, rule, resolved, resolved, Nat.le_refl _⟩, fun flag mem => ?_⟩
  exact ⟨flag, List.mem_append_right _ mem, rfl, rfl⟩

end CommandFields.Provides

section Made

variable {d : CommandFields} {path : String} {stub : Stub}

/-- The stub that is made for one command fits another exactly when that one provides what the
first does. -/
theorem stub_fits_iff (made : Stub.ofSpec ⟨d.handler, path, d.useLine, d.summary, d.flags, d.args⟩ =
      .ok stub) {above : List CommandFields} {command : CommandFields}
    (wf : command.WellFormed) : stub.Fits above command ↔ command.Provides above d := by
  obtain ⟨-, needed, reads⟩ := Stub.takes_of_ofSpec made
  rw [arity_eq_ok_iff rfl] at needed
  obtain ⟨rule, resolved⟩ := wf.arity
  rw [(Stub.written_of_ofSpec made).fits_iff]
  constructor
  · rintro ⟨words, flags⟩
    -- the least line that is accepted has just the words that every line has
    refine ⟨⟨rule, stub.arity, resolved, needed,
      words rule resolved _ (wf.accepts_fixedSlots resolved)⟩, fun flag mem => ?_⟩
    obtain ⟨read, listed, named, typed⟩ := (exists_mem_of_forall₂ reads).1 flag mem
    obtain ⟨seen, visible, same, typed'⟩ := flags read listed
    rw [FlagDecl.flagKind_eq_ok_iff] at typed typed'
    exact ⟨seen, visible, same.trans named, typed'.trans typed.symm⟩
  · rintro ⟨⟨rule', needed', resolved', needed'', least⟩, flags⟩
    rw [resolved] at resolved'
    cases resolved'
    rw [needed] at needed''
    cases needed''
    refine ⟨?_, fun read listed => ?_⟩
    · intro other resolved' count accepted
      rw [resolved] at resolved'
      cases resolved'
      exact Nat.le_trans least (Arity.accepts_iff.mp accepted).1
    · obtain ⟨flag, mem, named, typed⟩ := (exists_mem_of_forall₂ reads).2 read listed
      obtain ⟨seen, visible, same, kind⟩ := flags flag mem
      rw [FlagDecl.flagKind_eq_ok_iff] at typed
      refine ⟨seen, visible, same.trans named.symm, ?_⟩
      rw [FlagDecl.flagKind_eq_ok_iff, kind, typed]

end Made

/-! ### Stubs and commands of a tool -/

section Tool

variable {tool : ToolDecl}

/-- A command with a function has a stub, which is made for the first command that has it. -/
theorem stub_of_leads {stubs : List Stub} (made : tool.handlerSpecs.mapM Stub.ofSpec = .ok stubs)
    {above : List CommandFields} {names : List String} {c : CommandDecl}
    (leads : tool.tree.Leads above names c) (named : c.handler ≠ "") :
    ∃ stub ∈ stubs, WrittenAs c.handler stub.name ∧ ∃ above' names' d,
      tool.FirstOfWalk above' names' d ∧ d.handler = c.handler ∧
        Stub.ofSpec ⟨d.handler, pathFrom tool.rootName names', d.useLine, d.summary, d.flags,
          d.args⟩ = .ok stub := by
  have collected : c.handler ∈ tool.handlerSpecs.map HandlerSpec.name :=
    mem_collected_iff.mpr ⟨named, above, names, c, leads, rfl⟩
  obtain ⟨spec, mem, same⟩ := List.mem_map.mp collected
  obtain ⟨stub, listed, ok⟩ := (exists_mem_of_forall₂ (mapM_eq_ok_iff.mp made)).1 spec mem
  have written := HandlerSpec.functionName_eq_ok_iff.mp (Stub.name_of_ofSpec ok)
  obtain ⟨above', names', d, first, rfl⟩ := first_of_mem mem
  exact ⟨stub, listed, same ▸ written, above', names', d, first, same, ok⟩

/-- In a call of a command that a stub fits, the stub finds each word and each flag that its code
reads. An accessor can fail only by the values that it finds. -/
theorem served_of_called {registry : Registry} {tree : Tree}
    (built : (tool.build registry).result = .ok tree) {argv : List String} {call : Call}
    (called : (tree.run argv).call? = some call) :
    ∃ above names c, tool.tree.Leads above names c ∧ c.handler ≠ "" ∧
      c.handler = call.binding.name ∧ call.invocation.path = pathFrom tool.rootName names ∧
      ∀ stub : Stub, stub.Fits above c.toCommandFields →
        (∀ index ∈ indexings stub.code, ∃ i < call.words.length, TakesWord i index) ∧
        ∀ asked ∈ contextCalls stub.code, ∃ name kind, ReadsFlag name kind asked ∧
          ∀ e, call.invocation.access kind name = .error e →
            ∃ found requested, e = .lookup name found requested := by
  obtain ⟨chain, node, binding, selects, accepted, -, rfl⟩ := Tree.checks_of_called called
  obtain ⟨descends, above, c, descent⟩ := selects.descent built
  have stands := descent.stands
  obtain ⟨named, same, -⟩ := stands.of_bound selects.bound
  refine ⟨above, chain.names, c, descent.leads, named, same.symm, stands.agrees.path_eq, ?_⟩
  intro stub fits
  refine ⟨fits.words _ stands.agrees.arity _ accepted, fun asked mem => ?_⟩
  obtain ⟨flag, seen, kind, typed, reads⟩ := fits.flags asked mem
  refine ⟨flag.name, kind, reads, fun e failed => ?_⟩
  obtain ⟨declared, answered⟩ := descent.answered descends seen
  have same := answered.typed
  rw [typed] at same
  cases same
  rcases answered.own with ok | ⟨found, -, lookup⟩
  · rw [ok] at failed
    cases failed
  · rw [lookup] at failed
    cases failed
    exact ⟨_, _, rfl⟩

end Tool

/-- The stubs of a valid tool. Each command with a function has one, the only one of its name, which
is made for the first command of the walk that has the function. Its code fits that command; another
command with the function it fits exactly when that one provides what the first does. In a call of a
command that it fits, the code takes no word that is not there, and no accessor that it calls names
a flag that is not in sight or has another type. The text of a stub reads as its code does, but for
what stands behind a line feed in its description or in the path. -/
theorem stubs_fit (tool : ToolDecl) (valid : tool.problems = []) (moduleName text : String)
    (generated : (Source.handlerModule tool moduleName).result = .ok text) :
    ∃ stubs : List Stub,
      text = Text.unlines (Source.moduleHeader tool) ++
        String.join (stubs.map fun s => "\n" ++ s.render) ∧
      (stubs.map Stub.name).Nodup ∧
      (∀ stub ∈ stubs, stub.ReadsAs definitions [[.word stub.name]] ∧
        stub.ReadsAs indexings (indexings stub.code) ∧
        stub.ReadsAs contextCalls (contextCalls stub.code)) ∧
      (∀ above names c, tool.tree.Leads above names c → c.handler ≠ "" →
        ∃ stub ∈ stubs, WrittenAs c.handler stub.name ∧ ∃ above' names' d,
          tool.FirstOfWalk above' names' d ∧ d.handler = c.handler ∧
          stub.path = pathFrom tool.rootName names' ∧ stub.Fits above' d.toCommandFields ∧
          (stub.Fits above c.toCommandFields ↔
            c.toCommandFields.Provides above d.toCommandFields)) ∧
      ∀ registry tree, (tool.build registry).result = .ok tree → ∀ argv call,
        (tree.run argv).call? = some call → ∃ above names c, tool.tree.Leads above names c ∧
          call.invocation.path = pathFrom tool.rootName names ∧ c.handler = call.binding.name ∧
          ∃ stub ∈ stubs, WrittenAs c.handler stub.name ∧ (stub.Fits above c.toCommandFields →
            (∀ index ∈ indexings stub.code, ∃ i < call.words.length, TakesWord i index) ∧
            ∀ asked ∈ contextCalls stub.code, ∃ name kind, ReadsFlag name kind asked ∧
              ∀ e, call.invocation.access kind name = .error e →
                ∃ found requested, e = .lookup name found requested) := by
  obtain ⟨specs, collected, stubs, made, rfl⟩ := Source.handlerModule_eq_ok_iff.mp generated
  obtain ⟨-, -, rfl⟩ := Source.moduleSpecs_eq_ok_iff.mp collected
  have wf := (ToolDecl.problems_eq_nil_iff.mp valid).commands
  have distinct := Source.nodup_of_writtenAs (Source.writtenAs_of_stubs made)
    (nodup_names_handlerSpecs [] tool.sites)
  refine ⟨stubs, rfl, distinct, ?_, ?_, ?_⟩
  · intro stub mem
    obtain ⟨spec, -, ok⟩ := (exists_mem_of_forall₂ (mapM_eq_ok_iff.mp made)).2 stub mem
    have written := Stub.written_of_ofSpec ok
    exact ⟨written.readsAs_definitions, written.readsAs_indexings.of_code,
      written.readsAs_contextCalls.of_code⟩
  · intro above names c leads named
    obtain ⟨stub, mem, written, above', names', d, first, same, ok⟩ :=
      stub_of_leads made leads named
    have wf' := (wf above' names' d first.leads).1
    exact ⟨stub, mem, written, above', names', d, first, same, (Stub.takes_of_ofSpec ok).1,
      (stub_fits_iff ok wf').mpr (.refl wf' above'), stub_fits_iff ok (wf above names c leads).1⟩
  · intro registry tree built argv call called
    obtain ⟨above, names, c, leads, named, same, path, serves⟩ := served_of_called built called
    obtain ⟨stub, mem, written, -⟩ := stub_of_leads made leads named
    exact ⟨above, names, c, leads, path, same, stub, mem, written, serves stub⟩

/-- A command that takes one word. -/
def berthCommand : CommandDecl :=
  { useLine := "berth <ship>", summary := "Berth a ship", args := some (.exactly 1),
    handler := "moor" }

/-- A command with the same function that takes no words. -/
def clearCommand : CommandDecl :=
  { useLine := "clear", summary := "Clear", args := some .none, handler := "moor" }

/-- A tool with one function for two commands. -/
def dockTool : ToolDecl where
  name := "dock"
  root := { useLine := "dock", summary := "Run a dock" }
  commands := [("berth", berthCommand), ("clear", clearCommand)]

/-- A function for the commands of the dock. -/
def dockRegistry : Registry :=
  .ofList [("moor", .handler fun _ _ => .ok ())]

/-- The one stub of the dock, made for `berth`. -/
def dockStub : Stub where
  name := "moor"
  summary := "`berth <ship>`: Berth a ship"
  path := "dock berth"
  reads := []
  arity := .exactly 1

/-- The module that is generated for the dock. -/
def dockModule : String :=
  Text.unlines (Source.moduleHeader dockTool) ++
    String.join ([dockStub].map fun s => "\n" ++ s.render)

theorem leads_of_dock {key : String} {c : CommandDecl} (entry : (key, c) ∈ dockTool.commands) :
    dockTool.tree.Leads [dockTool.tree.toCommandFields] [c.nameOr key] c :=
  .down entry (.here c)

/-- The stub fits the first of the two commands. -/
theorem stubs_fit_dock : dockTool.problems = [] ∧
    (Source.handlerModule dockTool "handlers").result = .ok dockModule ∧
    ∃ (stub : Stub) (above : List CommandFields) (names : List String) (d : CommandDecl),
      WrittenAs "moor" stub.name ∧ dockTool.FirstOfWalk above names d ∧ d.handler = "moor" ∧
        stub.Fits above d.toCommandFields := by
  have valid : dockTool.problems = [] := by rfl
  have generated : (Source.handlerModule dockTool "handlers").result = .ok dockModule := by rfl
  obtain ⟨stubs, -, -, -, each, -⟩ := stubs_fit dockTool valid "handlers" dockModule generated
  have leads := leads_of_dock (List.mem_cons_self : ("berth", berthCommand) ∈ dockTool.commands)
  obtain ⟨stub, -, written, above, names, d, first, same, -, fits, -⟩ :=
    each _ _ _ leads (by decide)
  exact ⟨valid, generated, stub, above, names, d, written, first, same, fits⟩

/-- The stub of the dock reads a word, but `clear`, which has the same function, is called without
one. -/
theorem stub_of_dock : dockTool.problems = [] ∧
    (Source.handlerModule dockTool "handlers").result = .ok dockModule ∧
    dockTool.tree.Leads [dockTool.tree.toCommandFields] ["clear"] clearCommand ∧
    WrittenAs clearCommand.handler dockStub.name ∧ clearCommand.arity = .ok .none ∧
    Arity.none.Accepts 0 ∧ indexings dockStub.render = [[.word "0"]] ∧
    ¬ dockStub.Fits [dockTool.tree.toCommandFields] clearCommand.toCommandFields ∧
    ∃ (tree : Tree) (call : Call), (dockTool.build dockRegistry).result = .ok tree ∧
      (tree.run ["dock", "clear"]).call? = some call ∧ call.binding.name = "moor" ∧
      call.words = [] := by
  have leads := leads_of_dock
    (List.mem_cons_of_mem _ List.mem_cons_self : ("clear", clearCommand) ∈ dockTool.commands)
  have made : Stub.ofSpec ⟨"moor", "dock berth", "berth <ship>", "Berth a ship", [],
      some (.exactly 1)⟩ = .ok dockStub := by rfl
  have reads := (Stub.written_of_ofSpec made).readsAs_indexings
  have index : [.word "0"] ∈ indexings dockStub.code := by
    rw [reads.code]
    exact List.mem_singleton_self _
  have called : (dockTool.build dockRegistry).result.map (fun tree =>
      (tree.run ["dock", "clear"]).call?.map fun call => (call.binding.name, call.words)) =
      .ok (some ("moor", [])) := by rfl
  refine ⟨by rfl, by rfl, leads, ?_, by rfl, by rfl,
    reads.render_eq (by decide) (by decide), ?_, ?_⟩
  · exact Source.functionName?_eq_some_iff.mp (by decide)
  · intro fits
    obtain ⟨i, less, -⟩ := fits.words .none rfl 0 rfl _ index
    exact absurd less (Nat.not_lt_zero i)
  · cases built : (dockTool.build dockRegistry).result with
    | error cause =>
      rw [built] at called
      cases called
    | ok tree =>
      rw [built] at called
      obtain ⟨call, asked, answer⟩ := Option.map_eq_some_iff.mp (Except.ok.inj called)
      obtain ⟨name, words⟩ := Prod.mk.inj answer
      exact ⟨tree, call, rfl, asked, name, words⟩

end ToolTree
