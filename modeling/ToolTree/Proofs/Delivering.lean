import ToolTree.Cli.Program
import ToolTree.Proofs.Writing

/-!
What a run of `gen` comes to.

A program `Looks` when it leaves the workspace as it is. `gen` looks at its declaration and for what
is in the way of its outputs, and only then writes, the handlers first: `Delivery` lists what the
writing can come to, and `GenRun` what the whole run can come to (`genRun_runGen`). What is known of
the run afterwards is read off these.
-/

namespace ToolTree.Files

/-- A program that leaves the workspace as it is. -/
def Looks {α : Type} (program : StateM Workspace α) : Prop :=
  ∀ w, (program w).2 = w

section Looks

variable {α β : Type}

theorem looks_pure (a : α) : Looks (pure a) :=
  fun _ => rfl

theorem looks_bind {program : StateM Workspace α} {next : α → StateM Workspace β}
    (first : Looks program) (second : ∀ a, Looks (next a)) : Looks (program >>= next) := by
  intro w
  show (next (program w).1 (program w).2).2 = w
  rw [second, first]

theorem looks_load (path : Path) : Looks (load path) := by
  refine looks_bind (fun _ => rfl) fun text => ?_
  split
  · exact looks_pure _
  · exact looks_pure _
  · exact looks_pure _

theorem Looks.run {program : StateM Workspace α} (looks : Looks program) (w : Workspace) :
    program w = ((program w).1, w) :=
  Prod.ext rfl (looks w)

end Looks

end ToolTree.Files

namespace ToolTree.Cli

open Files (Location Looks OsError Path Storage Workspace WriteError Wrote extends_of_writeOutput load
  loadText looks_bind looks_load looks_pure run_bind writeOutput wrote_of_writeOutput)

variable {w w' w'' : Workspace} {options : GenOptions} {outputs : Outputs}

/-! ### Writing both outputs -/

/-- What writing both outputs comes to: the handlers cannot be written, or the entry point cannot
when they were, or both are. -/
inductive Delivery (outputs : Outputs) (w : Workspace) : Exit → Workspace → Prop where
  | refused {w' : Workspace} (cause : OsError) : w.Extends w' →
      Delivery outputs w (.failure (WriteError.message ⟨outputs.handlersPath, cause⟩)) w'
  | half {w' w'' : Workspace} {place : Location} (cause : OsError) :
      Wrote outputs.handlersPath outputs.handlers place w w' → w'.Extends w'' →
      Delivery outputs w (.failure (WriteError.message ⟨outputs.mainPath, cause⟩)) w''
  | whole {w' w'' : Workspace} {place place' : Location} :
      Wrote outputs.handlersPath outputs.handlers place w w' →
      Wrote outputs.mainPath outputs.main place' w' w'' →
      Delivery outputs w
        { stdout := Text.unlines [
            s!"Generated {outputs.handlersPath.text}",
            s!"Generated {outputs.mainPath.text}"] } w''

theorem delivery_write (outputs : Outputs) (w : Workspace) :
    let result := (outputs.write : StateM Workspace Exit) w
    Delivery outputs w result.1 result.2 := by
  unfold Outputs.write
  cases first : (writeOutput outputs.handlersPath outputs.handlers : StateM Workspace _) w with
  | mk result w' =>
    rw [run_bind first]
    cases result with
    | error e =>
      obtain ⟨cause, rfl, added⟩ := extends_of_writeOutput first
      exact .refused cause added
    | ok =>
      obtain ⟨place, wrote⟩ := wrote_of_writeOutput first
      cases second : (writeOutput outputs.mainPath outputs.main : StateM Workspace _) w' with
      | mk result w'' =>
        dsimp only
        rw [run_bind second]
        cases result with
        | error e =>
          obtain ⟨cause, rfl, added⟩ := extends_of_writeOutput second
          exact .half cause wrote added
        | ok =>
          obtain ⟨place', wrote'⟩ := wrote_of_writeOutput second
          exact .whole wrote wrote'

/-! ### The whole run -/

/-- Where `gen` puts the handlers. -/
def GenOptions.handlersPath (options : GenOptions) : Path :=
  match options.output? with
  | some output => Path.ofText output
  | none => (directoryOf (Path.ofText options.config)).join s!"{options.moduleName}.rs"

/-- Where `gen` puts the entry point. -/
def GenOptions.mainPath (options : GenOptions) : Path :=
  match options.main? with
  | some main => Path.ofText main
  | none => (directoryOf (Path.ofText options.config)).join "main.rs"

/-- The program spells its two paths out. -/
theorem runGen_eq (options : GenOptions) :
    (runGen options : StateM Workspace Exit) =
      load (Path.ofText options.config) >>= fun loaded => match loaded with
        | .error e => pure (.failure e.message)
        | .ok tool =>
          embeddedPath (Path.ofText options.config) options.mainPath >>= fun embedded =>
            match embedded with
            | .error message => pure (.failure message)
            | .ok embedded =>
              match Outputs.generate tool options.moduleName embedded options.handlersPath
                options.mainPath with
              | .error e => pure (.failure e.message)
              | .ok outputs => outputs.deliver options.force :=
  rfl

theorem looks_embeddedPath (config main : Path) : Looks (embeddedPath config main) := by
  have full : Looks (fullPath config) := by
    refine looks_bind (fun _ => rfl) fun resolved => ?_
    cases resolved <;> exact looks_pure _
  unfold embeddedPath
  split
  · split
    · exact looks_pure _
    · exact full
  · exact full

theorem Outputs.parts_of_generate {tool : ToolDecl} {moduleName embedded : String}
    {handlersPath mainPath : Path} {outputs : Outputs}
    (generated : generate tool moduleName embedded handlersPath mainPath = .ok outputs) :
    (Source.handlerModule tool moduleName).result = .ok outputs.handlers ∧
      (Source.entryPoint tool moduleName embedded).result = .ok outputs.main ∧
      outputs.handlersPath = handlersPath ∧ outputs.mainPath = mainPath := by
  obtain ⟨handlers, stubs, generated⟩ := bind_eq_ok_iff.mp generated
  obtain ⟨main, entry, generated⟩ := bind_eq_ok_iff.mp generated
  cases generated
  exact ⟨stubs, entry, rfl, rfl⟩

/-- The outputs that `gen` makes of a declaration with a text: the handlers and the entry point of
the tool that is declared, each for its path. -/
structure GenOptions.Makes (options : GenOptions) (w : Workspace) (text : String) (tool : ToolDecl)
    (outputs : Outputs) : Prop where
  read : w.tree.readText w.here (Path.ofText options.config) = .ok (some text)
  loaded : loadText (Path.ofText options.config) text = .ok tool
  handlers : (Source.handlerModule tool options.moduleName).result = .ok outputs.handlers
  main : ∃ embedded,
    (embeddedPath (Path.ofText options.config) options.mainPath : StateM Workspace _) w =
      (.ok embedded, w) ∧
    (Source.entryPoint tool options.moduleName embedded).result = .ok outputs.main
  handlersPath : outputs.handlersPath = options.handlersPath
  mainPath : outputs.mainPath = options.mainPath

/-- What a run of `gen` comes to: it fails before anything is written, or shows its outputs since
something is in their way, or writes them. Without leave to replace anything, they are written only
where nothing was seen before. -/
inductive GenRun (options : GenOptions) (w : Workspace) : Exit → Workspace → Prop where
  | stopped (message : String) : GenRun options w (.failure message) w
  | shown (outputs : Outputs) (warning : String) :
      GenRun options w { stdout := outputs.shown, stderr := warning } w
  | delivered {text : String} {tool : ToolDecl} {outputs : Outputs} {exit : Exit}
      {after : Workspace} : options.Makes w text tool outputs →
      (options.force = false → ∀ path ∈ [outputs.handlersPath, outputs.mainPath],
        w.tree.pathExists w.here path = false) →
      Delivery outputs w exit after → GenRun options w exit after

theorem readText_of_load {path : Path} {tool : ToolDecl}
    (loaded : (load path : StateM Workspace _) w = (.ok tool, w)) :
    ∃ text, w.tree.readText w.here path = .ok (some text) ∧ loadText path text = .ok tool := by
  have step : (Storage.readText path : StateM Workspace _) w =
      (w.tree.readText w.here path, w) := rfl
  unfold load at loaded
  rw [run_bind step] at loaded
  cases read : w.tree.readText w.here path with
  | error cause =>
    rw [read] at loaded
    cases loaded
  | ok text? =>
    rw [read] at loaded
    cases text? with
    | none => cases loaded
    | some text => exact ⟨text, rfl, congrArg Prod.fst loaded⟩

theorem filterAuxM_pathExists (w : Workspace) (paths kept : List Path) :
    List.filterAuxM (fun path => (Storage.pathExists path : StateM Workspace Bool)) paths kept w =
      ((paths.filter (w.tree.pathExists w.here)).reverse ++ kept, w) := by
  induction paths generalizing kept with
  | nil => rfl
  | cons path rest ih =>
    refine (ih (bif w.tree.pathExists w.here path then path :: kept else kept)).trans ?_
    cases seen : w.tree.pathExists w.here path <;> simp [seen]

theorem filterM_pathExists (w : Workspace) (paths : List Path) :
    (paths.filterM fun path => (Storage.pathExists path : StateM Workspace Bool)) w =
      (paths.filter (w.tree.pathExists w.here), w) := by
  unfold List.filterM
  rw [run_bind (filterAuxM_pathExists w paths [])]
  exact congrArg (·, w) (by simp)

/-- Both outputs are looked for before anything is written. -/
theorem genRun_deliver {text : String} {tool : ToolDecl}
    (makes : options.Makes w text tool outputs) :
    let result := (outputs.deliver options.force : StateM Workspace Exit) w
    GenRun options w result.1 result.2 := by
  unfold Outputs.deliver
  rw [run_bind (filterM_pathExists w _)]
  split
  · next allowed =>
    refine .delivered makes (fun unforced path mem => ?_) (delivery_write outputs w)
    rw [unforced, Bool.or_false, List.isEmpty_iff, List.filter_eq_nil_iff] at allowed
    exact eq_false_of_ne_true (allowed path mem)
  · exact .shown outputs _

theorem genRun_runGen (options : GenOptions) (w : Workspace) :
    let result := (runGen options : StateM Workspace Exit) w
    GenRun options w result.1 result.2 := by
  have loads := (looks_load (Path.ofText options.config)).run w
  rw [runGen_eq, run_bind loads]
  generalize ((load (Path.ofText options.config) : StateM Workspace _) w).1 = loaded at loads
  cases loaded with
  | error e => exact .stopped _
  | ok tool =>
    obtain ⟨text, read, loaded⟩ := readText_of_load loads
    have embeds := (looks_embeddedPath (Path.ofText options.config) options.mainPath).run w
    dsimp only
    rw [run_bind embeds]
    generalize ((embeddedPath (Path.ofText options.config) options.mainPath :
      StateM Workspace _) w).1 = embedded at embeds
    cases embedded with
    | error message => exact .stopped _
    | ok embedded =>
      dsimp only
      cases generated : Outputs.generate tool options.moduleName embedded options.handlersPath
        options.mainPath with
      | error e => exact .stopped _
      | ok outputs =>
        obtain ⟨handlers, main, handlersPath, mainPath⟩ := Outputs.parts_of_generate generated
        have makes : options.Makes w text tool outputs :=
          ⟨read, loaded, handlers, ⟨embedded, embeds, main⟩, handlersPath, mainPath⟩
        exact genRun_deliver makes

/-- A line that starts with the name of the command asks for nothing else. -/
theorem generates_of_gen (words : List String) :
    ∀ request, Request.ofLine ("gen" :: words) = .ok request →
      ∃ options, request = .gen options := by
  intro request asked
  have found : Keyed.find? "gen" Verb.all = some .gen := by decide
  unfold Request.ofLine readLine at asked
  rw [if_neg (by decide), found] at asked
  obtain ⟨given, -, asked⟩ := bind_eq_ok_iff.mp asked
  obtain ⟨config, -, asked⟩ := bind_eq_ok_iff.mp asked
  cases asked
  exact ⟨_, rfl⟩

end ToolTree.Cli
