import ToolTree.Proofs.Sparing

/-!
Where a run of `gen` leaves its outputs.

Writing to a path leaves the text where the path leads; what another path leads to is the same as
before, unless both paths lead to one place (`Files.Meet`). So a run that fails changes no file,
unless the entry point could not be written when the handlers were (`files_of_failed_gen`); and
after a run that reports both, each output is read where it was asked for, and the declaration as it
was loaded, unless an output was put in the place of something else (`outputs_of_reported_gen`).
-/

namespace ToolTree.Files

variable {w w' : Workspace} {path other : Path} {place place' : Location} {text : String}

/-! ### Paths after a write -/

/-- The same files stand in both workspaces, each with the same text. -/
def SameFiles (w w' : Workspace) : Prop :=
  ∀ place text, w'.tree.lookup? place = some (.file text) ↔
    w.tree.lookup? place = some (.file text)

/-- Two paths that lead to one place. -/
def Meet (w : Workspace) (path other : Path) : Prop :=
  ∃ found, w.tree.locate w.here path = .ok found ∧ w.tree.locate w.here other = .ok found

theorem SameFiles.refl (w : Workspace) : SameFiles w w :=
  fun _ _ => Iff.rfl

theorem Workspace.Extends.sameFiles (h : w.Extends w') : SameFiles w w' :=
  fun place text => ⟨h.file place text, h.tree place _⟩

theorem Workspace.Extends.locate (h : w.Extends w') {entry : Entry}
    (located : w.tree.locate w.here path = .ok (place, entry)) :
    w'.tree.locate w'.here path = .ok (place, entry) := by
  obtain ⟨-, -, found⟩ := FileTree.locate_eq_ok_iff.mp located
  rw [h.here]
  exact h.tree.grows.locate located (h.tree place entry found)

theorem not_meet (apart : w.tree.locate w.here path ≠ w.tree.locate w.here other) :
    ¬ Meet w path other := by
  rintro ⟨found, located, located'⟩
  exact apart (located.trans located'.symm)

/-- Paths that meet still meet when the tree has grown. -/
theorem Meet.grows (h : Meet w path other) (here : w'.here = w.here)
    (grows : w.tree.Grows w'.tree) : Meet w' path other := by
  obtain ⟨⟨place, entry⟩, located, located'⟩ := h
  obtain ⟨-, -, found⟩ := FileTree.locate_eq_ok_iff.mp located
  have kept : ∃ entry', w'.tree.lookup? place = some entry' := by
    cases entry with
    | directory => exact ⟨_, grows.directory place found⟩
    | file text =>
      obtain ⟨text', found'⟩ := grows.file place text found
      exact ⟨_, found'⟩
  obtain ⟨entry', found'⟩ := kept
  rw [Meet, here]
  exact ⟨(place, entry'), grows.locate located found', grows.locate located' found'⟩

/-- A file that another path leads to is left as it is, unless the paths meet there. -/
theorem Wrote.readText {text' : String} (h : Wrote path text place w w')
    (read : w.tree.readText w.here other = .ok (some text')) :
    w'.tree.readText w'.here other = .ok (some text') ∨ Meet w' path other := by
  obtain ⟨place', located⟩ := FileTree.readText_eq_some_iff.mp read
  obtain ⟨-, -, found⟩ := FileTree.locate_eq_ok_iff.mp located
  by_cases same : place' = place
  · right
    subst same
    obtain ⟨-, -, written⟩ := FileTree.locate_eq_ok_iff.mp h.located
    refine ⟨(place', .file text), h.located, ?_⟩
    rw [h.here]
    exact h.grows.locate located written
  · left
    refine FileTree.readText_eq_some_iff.mpr ⟨place', ?_⟩
    rw [h.here]
    exact h.grows.locate located ((h.others place' text' same).mpr found)

/-- After two writes a file is as before, unless one of the paths that were written to meets its. -/
theorem Wrote.readText_twice {w'' : Workspace} {path' : Path} {text' text'' : String}
    (h : Wrote path text place w w') (h' : Wrote path' text' place' w' w'')
    (read : w.tree.readText w.here other = .ok (some text'')) :
    w''.tree.readText w''.here other = .ok (some text'') ∨
      ∃ written ∈ [path, path'], Meet w'' written other := by
  rcases h.readText read with read | meet
  · rcases h'.readText read with read | meet
    · exact .inl read
    · exact .inr ⟨_, by simp, meet⟩
  · exact .inr ⟨_, by simp, meet.grows h'.here h'.grows⟩

end ToolTree.Files

namespace ToolTree.Cli

open Files (Detour FileTree Kept Meet Path SameFiles Workspace WriteError Wrote loadText)

variable {w : Workspace} {options : GenOptions}

/-! ### A run that fails -/

/-- The end of a run that could not write the entry point when the handlers were written. The one
file that is not as before is what the path of the handlers leads to, and holds them. -/
structure HalfDone (options : GenOptions) (outputs : Outputs) (w : Workspace) (exit : Exit)
    (after : Workspace) : Prop where
  error : ∃ cause, exit = .failure (WriteError.message ⟨options.mainPath, cause⟩)
  changed : ∃ place,
    after.tree.locate after.here options.handlersPath = .ok (place, .file outputs.handlers) ∧
    ∀ other text, other ≠ place → (after.tree.lookup? other = some (.file text) ↔
      w.tree.lookup? other = some (.file text))

theorem GenRun.failed {exit : Exit} {after : Workspace} (h : GenRun options w exit after)
    (failed : exit.code ≠ 0) : SameFiles w after ∨
      ∃ text tool outputs, options.Makes w text tool outputs ∧
        HalfDone options outputs w exit after := by
  cases h with
  | stopped message => exact .inl (.refl w)
  | shown outputs warning => exact absurd rfl failed
  | @delivered text tool outputs _ _ makes _ delivery =>
    cases delivery with
    | refused cause added => exact .inl added.sameFiles
    | @half w' _ place cause wrote added =>
      refine .inr ⟨text, tool, outputs, makes, ⟨cause, by rw [makes.mainPath]⟩, place, ?_, ?_⟩
      · rw [← makes.handlersPath]
        exact added.locate wrote.located
      · intro other text' apart
        exact (added.sameFiles other text').trans (wrote.others other text' apart)
    | whole => exact absurd rfl failed

/-- What a line that asks for `gen` leaves of the files when the program ends with a code that is
not zero: all of them, and no others, unless the handlers were written and the entry point could
not be, which the error says. -/
theorem files_of_failed_gen {w : Workspace} {line : List String}
    (generates : ∀ request, Request.ofLine line = .ok request →
      ∃ options, request = .gen options)
    (failed : ((run line : StateM Workspace Exit) w).1.code ≠ 0) :
    let result := (run line : StateM Workspace Exit) w
    SameFiles w result.2 ∨ ∃ options text tool outputs,
      Request.ofLine line = .ok (.gen options) ∧ options.Makes w text tool outputs ∧
        HalfDone options outputs w result.1 result.2 := by
  intro result
  cases asked : Request.ofLine line with
  | error stop =>
    have same : result.2 = w := by
      simp only [result, run, asked]
      rfl
    rw [same]
    exact .inl (.refl w)
  | ok request =>
    obtain ⟨options, rfl⟩ := generates request asked
    have ran : result = (runGen options : StateM Workspace Exit) w := by
      simp only [result, run, asked, Request.run]
    have outcome := genRun_runGen options w
    simp only [← ran] at outcome
    rcases outcome.failed failed with same | ⟨text, tool, outputs, makes, half⟩
    · exact .inl same
    · exact .inr ⟨options, text, tool, outputs, rfl, makes, half⟩

/-- A line that puts the entry point below a file. -/
def blockedLine : List String :=
  ["gen", "commands.yaml", "--main", "commands.yaml/main.rs"]

theorem files_of_failed_gen_pier :
    (∀ request, Request.ofLine blockedLine = .ok request → ∃ options, request = .gen options) ∧
      ((run blockedLine : StateM Workspace Exit) pier).1.code ≠ 0 ∧
      let result := (run blockedLine : StateM Workspace Exit) pier
      SameFiles pier result.2 ∨ ∃ options text tool outputs,
        Request.ofLine blockedLine = .ok (.gen options) ∧ options.Makes pier text tool outputs ∧
          HalfDone options outputs pier result.1 result.2 := by
  have generates := generates_of_gen ["commands.yaml", "--main", "commands.yaml/main.rs"]
  have failed : ((run blockedLine : StateM Workspace Exit) pier).1.code ≠ 0 := by decide +kernel
  exact ⟨generates, failed, files_of_failed_gen generates failed⟩

/-- The handlers stay when the entry point cannot be written. -/
theorem half_done_of_pier :
    (∀ request, Request.ofLine blockedLine = .ok request → ∃ options, request = .gen options) ∧
      ((run blockedLine : StateM Workspace Exit) pier).1 = .failure
        "failed to write commands.yaml/main.rs: File exists (os error 17)" ∧
      ["handlers.rs"] ∉ pier.tree.files ∧
      ["handlers.rs"] ∈ ((run blockedLine : StateM Workspace Exit) pier).2.tree.files :=
  ⟨generates_of_gen ["commands.yaml", "--main", "commands.yaml/main.rs"], by decide +kernel⟩

/-! ### A run that reports both outputs -/

theorem head?_unlines (first : String) (rest : List String) (c : Char) (cs : List Char)
    (starts : first.toList = c :: cs) : (Text.unlines (first :: rest)).toList.head? = some c := by
  simp [Text.unlines, starts]

/-- What is shown is no report. -/
theorem shown_ne_report (outputs : Outputs) (handlersPath mainPath : String) :
    outputs.shown ≠ Text.unlines [s!"Generated {handlersPath}", s!"Generated {mainPath}"] := by
  intro same
  have heads := congrArg (fun text : String => text.toList.head?) same
  simp only [Outputs.shown] at heads
  rw [head?_unlines _ _ '/' _ (by simp; rfl), head?_unlines _ _ 'G' _ (by simp; rfl)] at heads
  cases heads

/-- A run that reports both outputs has written both. -/
theorem GenRun.whole {exit : Exit} {after : Workspace} (h : GenRun options w exit after)
    (succeeded : exit.code = 0)
    (reported : exit.stdout = Text.unlines [
      s!"Generated {options.handlersPath.text}", s!"Generated {options.mainPath.text}"]) :
    ∃ text tool outputs w' place place', options.Makes w text tool outputs ∧
      Wrote options.handlersPath outputs.handlers place w w' ∧
      Wrote options.mainPath outputs.main place' w' after := by
  cases h with
  | stopped message => cases succeeded
  | shown outputs warning => exact absurd reported (shown_ne_report outputs _ _)
  | @delivered text tool outputs _ _ makes _ delivery =>
    rw [← makes.handlersPath, ← makes.mainPath]
    cases delivery with
    | refused => cases succeeded
    | half => cases succeeded
    | @whole w' _ place place' wrote wrote' =>
      exact ⟨text, tool, outputs, w', place, place', makes, wrote, wrote'⟩

theorem GenRun.reported {exit : Exit} {after : Workspace} (h : GenRun options w exit after)
    (succeeded : exit.code = 0)
    (reported : exit.stdout = Text.unlines [
      s!"Generated {options.handlersPath.text}", s!"Generated {options.mainPath.text}"]) :
    ∃ text tool outputs, options.Makes w text tool outputs ∧
      after.tree.readText after.here options.mainPath = .ok (some outputs.main) ∧
      (after.tree.readText after.here options.handlersPath = .ok (some outputs.handlers) ∨
        Meet after options.mainPath options.handlersPath) ∧
      (after.tree.readText after.here (Path.ofText options.config) = .ok (some text) ∨
        ∃ path ∈ [options.handlersPath, options.mainPath],
          Meet after path (Path.ofText options.config)) := by
  obtain ⟨text, tool, outputs, w', place, place', makes, wrote, wrote'⟩ :=
    h.whole succeeded reported
  have handlers := FileTree.readText_eq_some_iff.mpr ⟨place, wrote.located⟩
  have main := FileTree.readText_eq_some_iff.mpr ⟨place', wrote'.located⟩
  exact ⟨text, tool, outputs, makes, main, wrote'.readText handlers,
    wrote.readText_twice wrote' makes.read⟩

/-- Without leave to replace anything, the declaration is replaced after a detour at most. -/
theorem detour_of_replaced (grounded : w.tree.Grounded) (unforced : options.force = false)
    {path : Path} {text : String} (read : w.tree.readText w.here path = .ok (some text)) :
    let after := ((runGen options : StateM Workspace Exit) w).2
    after.tree.readText after.here path = .ok (some text) ∨
      ∃ output ∈ [options.handlersPath, options.mainPath], Meet after output path ∧
        ∃ place, Detour w output after.tree place := by
  intro after
  have kept : Files.Kept w _ after := kept_runGen grounded unforced
  obtain ⟨place, located⟩ := FileTree.readText_eq_some_iff.mp read
  obtain ⟨-, -, found⟩ := FileTree.locate_eq_ok_iff.mp located
  rw [FileTree.readText_eq_some_iff, kept.here]
  rcases kept.file place text found with same | ⟨output, mem, detour⟩
  · exact .inl ⟨place, kept.grows.locate located same⟩
  · obtain ⟨text', reached⟩ := detour.found
    obtain ⟨-, -, found'⟩ := FileTree.locate_eq_ok_iff.mp reached
    refine .inr ⟨output, mem, ⟨(place, .file text'), ?_, ?_⟩, place, detour⟩
    · rw [kept.here]
      exact reached
    · rw [kept.here]
      exact kept.grows.locate located found'

/-- What a line that asks for `gen` leaves when the program reports both outputs: the entry point is
read where it was asked for, and so are the handlers, unless both have one place. The declaration is
as it was loaded, unless an output has its place; then the line forced it, or the path of the output
made a detour. -/
theorem outputs_of_reported_gen {w : Workspace} (grounded : w.tree.Grounded) {line : List String}
    {options : GenOptions} (asked : Request.ofLine line = .ok (.gen options))
    (succeeded : ((run line : StateM Workspace Exit) w).1.code = 0)
    (reported : ((run line : StateM Workspace Exit) w).1.stdout = Text.unlines [
      s!"Generated {options.handlersPath.text}", s!"Generated {options.mainPath.text}"]) :
    let after := ((run line : StateM Workspace Exit) w).2
    let config := Path.ofText options.config
    ∃ text tool outputs, options.Makes w text tool outputs ∧
      after.tree.readText after.here options.mainPath = .ok (some outputs.main) ∧
      (after.tree.readText after.here options.handlersPath = .ok (some outputs.handlers) ∨
        Meet after options.mainPath options.handlersPath) ∧
      (after.tree.readText after.here config = .ok (some text) ∨
        ∃ path ∈ [options.handlersPath, options.mainPath], Meet after path config ∧
          (options.force = true ∨ ∃ place, Detour w path after.tree place)) := by
  have ran : (run line : StateM Workspace Exit) w = (runGen options : StateM Workspace Exit) w := by
    simp only [run, asked, Request.run]
  rw [ran] at succeeded reported ⊢
  intro after config
  obtain ⟨text, tool, outputs, makes, main, handlers, declaration⟩ :=
    (genRun_runGen options w).reported succeeded reported
  refine ⟨text, tool, outputs, makes, main, handlers, ?_⟩
  cases forced : options.force with
  | true =>
    refine declaration.imp_right ?_
    rintro ⟨path, mem, meet⟩
    exact ⟨path, mem, meet, .inl rfl⟩
  | false =>
    refine (detour_of_replaced grounded forced makes.read).imp_right ?_
    rintro ⟨path, mem, meet, detour⟩
    exact ⟨path, mem, meet, .inr detour⟩

/-- What `gen` is given when both outputs go beside the declaration. -/
def plainOptions : GenOptions where
  config := "commands.yaml"
  moduleName := "handlers"
  output? := none
  main? := none
  force := false

theorem outputs_of_reported_gen_pier :
    pier.tree.Grounded ∧ Request.ofLine ["gen", "commands.yaml"] = .ok (.gen plainOptions) ∧
      ((run ["gen", "commands.yaml"] : StateM Workspace Exit) pier).1 =
        { stdout := "Generated handlers.rs\nGenerated main.rs\n" } ∧
      let after := ((run ["gen", "commands.yaml"] : StateM Workspace Exit) pier).2
      ∃ text tool outputs, plainOptions.Makes pier text tool outputs ∧
        after.tree.readText after.here plainOptions.mainPath = .ok (some outputs.main) ∧
        after.tree.readText after.here plainOptions.handlersPath =
          .ok (some outputs.handlers) ∧
        after.tree.readText after.here (Path.ofText "commands.yaml") = .ok (some text) := by
  have asked : Request.ofLine ["gen", "commands.yaml"] = .ok (.gen plainOptions) := by
    decide +kernel
  have computed : ((run ["gen", "commands.yaml"] : StateM Workspace Exit) pier).1 =
        { stdout := "Generated handlers.rs\nGenerated main.rs\n" } ∧
      let after := ((run ["gen", "commands.yaml"] : StateM Workspace Exit) pier).2
      [plainOptions.handlersPath, plainOptions.mainPath, Path.ofText "commands.yaml"].Pairwise
        fun path other => after.tree.locate after.here path ≠ after.tree.locate after.here other := by
    decide +kernel
  obtain ⟨ended, apart⟩ := computed
  simp only [List.pairwise_cons, List.forall_mem_cons] at apart
  obtain ⟨⟨handlersMain, handlersConfig, -⟩, ⟨mainConfig, -⟩, -⟩ := apart
  have reported : ((run ["gen", "commands.yaml"] : StateM Workspace Exit) pier).1.stdout =
      Text.unlines [s!"Generated {plainOptions.handlersPath.text}",
        s!"Generated {plainOptions.mainPath.text}"] := by
    rw [ended]
    decide +kernel
  refine ⟨grounded_pier, asked, ended, ?_⟩
  obtain ⟨text, tool, outputs, makes, main, handlers, declaration⟩ :=
    outputs_of_reported_gen grounded_pier asked (congrArg Exit.code ended) reported
  refine ⟨text, tool, outputs, makes, main, ?_, ?_⟩
  · rcases handlers with read | meet
    · exact read
    · exact absurd meet (Files.not_meet handlersMain.symm)
  · rcases declaration with read | ⟨path, mem, meet, -⟩
    · exact read
    · rcases List.mem_pair.mp mem with rfl | rfl
      · exact absurd meet (Files.not_meet handlersConfig)
      · exact absurd meet (Files.not_meet mainConfig)

/-- What `gen` is given when the handlers go where the entry point goes. -/
def sharedOptions : GenOptions :=
  { plainOptions with output? := some "main.rs" }

/-- The entry point takes the place of the handlers that were written to it before. -/
theorem handlers_lost_of_pier {text : String} {tool : ToolDecl} {outputs : Outputs}
    (makes : sharedOptions.Makes pier text tool outputs) :
    ((runGen sharedOptions : StateM Workspace Exit) pier).2.tree.readText []
      sharedOptions.handlersPath ≠ .ok (some outputs.handlers) := by
  have differs : ((pier.tree.readText pier.here (Path.ofText "commands.yaml")).toOption.all
      fun text? => text?.all fun text =>
        (loadText (Path.ofText "commands.yaml") text).toOption.all fun tool =>
          (Source.handlerModule tool "handlers").result.toOption.all fun handlers =>
            ((runGen sharedOptions : StateM Workspace Exit) pier).2.tree.readText []
              sharedOptions.handlersPath ≠ .ok (some handlers)) = true := by
    decide +kernel
  have read : pier.tree.readText pier.here (Path.ofText "commands.yaml") = .ok (some text) :=
    makes.read
  have loaded : loadText (Path.ofText "commands.yaml") text = .ok tool := makes.loaded
  have handlers : (Source.handlerModule tool "handlers").result = .ok outputs.handlers :=
    makes.handlers
  rw [read] at differs
  simpa [Except.toOption, loaded, handlers] using differs

/-- Both outputs are reported, and yet a declaration that the line names as an output is lost, and
so are handlers that the entry point is written over. -/
theorem outputs_lost_of_pier :
    (let line := ["gen", "commands.yaml", "--output", "commands.yaml", "--force"]
      let result := (run line : StateM Workspace Exit) pier
      result.1 = { stdout := "Generated commands.yaml\nGenerated main.rs\n" } ∧
        result.2.tree.readText [] (Path.ofText "commands.yaml") ≠
          pier.tree.readText [] (Path.ofText "commands.yaml")) ∧
      let line := ["gen", "commands.yaml", "--output", "main.rs"]
      let result := (run line : StateM Workspace Exit) pier
      Request.ofLine line = .ok (.gen sharedOptions) ∧
        result.1 = { stdout := "Generated main.rs\nGenerated main.rs\n" } ∧
        ∃ text tool outputs, sharedOptions.Makes pier text tool outputs ∧
          result.2.tree.readText [] sharedOptions.handlersPath ≠ .ok (some outputs.handlers) := by
  refine ⟨by decide +kernel, ?_⟩
  intro line result
  have asked : Request.ofLine line = .ok (.gen sharedOptions) := by decide +kernel
  have ran : result = (runGen sharedOptions : StateM Workspace Exit) pier := by
    simp only [result, run, asked, Request.run]
  have ended : ((runGen sharedOptions : StateM Workspace Exit) pier).1 =
      { stdout := "Generated main.rs\nGenerated main.rs\n" } := by
    decide +kernel
  have reported : ((runGen sharedOptions : StateM Workspace Exit) pier).1.stdout =
      Text.unlines [s!"Generated {sharedOptions.handlersPath.text}",
        s!"Generated {sharedOptions.mainPath.text}"] := by
    rw [ended]
    decide +kernel
  obtain ⟨text, tool, outputs, makes, -⟩ :=
    (genRun_runGen sharedOptions pier).reported (congrArg Exit.code ended) reported
  rw [ran]
  exact ⟨asked, ended, text, tool, outputs, makes, handlers_lost_of_pier makes⟩

end ToolTree.Cli
