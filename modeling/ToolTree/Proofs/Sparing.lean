import ToolTree.Proofs.Delivering

/-!
What the program leaves of the files that are there.

A line is `Sparing` when it asks for nothing to be replaced: it forces no output and names no file
for documentation. Both outputs of `gen` are looked for before anything is written, so a file is
replaced only where a path makes a `Detour`: it goes back out of a directory that was missing when
it was looked for, and was made in between. All other files stay as they are (`files_spared`), and
a detour is possible (`detour_of_pier`).
-/

namespace ToolTree.Files

/-- A path that led nowhere before, since something was missing on it, and leads to a file after,
with a step back on the way. -/
structure Detour (before : Workspace) (path : Path) (after : FileTree) (place : Location) :
    Prop where
  back : ".." ∈ path.pieces
  missing : before.tree.locate before.here path = .error .noEntry
  found : ∃ text, after.locate before.here path = .ok (place, .file text)

/-- What is left of a workspace when the paths `paths` were written to: directories and files are
still there, and a file has another text only where one of the paths made a detour to it. -/
structure Kept (before : Workspace) (paths : List Path) (after : Workspace) : Prop where
  here : after.here = before.here
  grows : before.tree.Grows after.tree
  file : ∀ place text, before.tree.lookup? place = some (.file text) →
    after.tree.lookup? place = some (.file text) ∨
      ∃ path ∈ paths, Detour before path after.tree place

variable {before w w' : Workspace} {path : Path} {paths : List Path} {place : Location}

theorem Detour.grows {tree tree' : FileTree} (h : Detour before path tree place)
    (grows : tree.Grows tree') : Detour before path tree' place := by
  refine ⟨h.back, h.missing, ?_⟩
  obtain ⟨text, located⟩ := h.found
  obtain ⟨-, -, found⟩ := FileTree.locate_eq_ok_iff.mp located
  obtain ⟨text', found'⟩ := grows.file place text found
  exact ⟨text', grows.locate located found'⟩

theorem Kept.refl (before : Workspace) (paths : List Path) : Kept before paths before :=
  ⟨rfl, .refl _, fun _ _ found => .inl found⟩

theorem Kept.of_extends (h : Kept before paths w) (added : w.Extends w') :
    Kept before paths w' := by
  refine ⟨added.here.trans h.here, h.grows.trans added.tree.grows, fun place text found => ?_⟩
  rcases h.file place text found with same | ⟨path, mem, detour⟩
  · exact .inl (added.tree place _ same)
  · exact .inr ⟨path, mem, detour.grows added.tree.grows⟩

/-- Where a path led nowhere before and leads to a file that was there before, it made a detour. -/
theorem detour_of_unseen (grounded : before.tree.Grounded) (grows : before.tree.Grows w.tree)
    (unseen : before.tree.pathExists before.here path = false) (admitted : path.admit = .ok ())
    (followed : w.tree.follow (FileTree.start before.here path) path.pieces = .ok place)
    {text : String} (found : before.tree.lookup? place = some (.file text)) :
    Detour before path w.tree place := by
  have strayed : before.tree.follow (FileTree.start before.here path) path.pieces ≠ .ok place := by
    intro straight
    have located := FileTree.locate_eq_ok_iff.mpr ⟨admitted, straight, found⟩
    rw [FileTree.pathExists, located] at unseen
    cases unseen
  refine ⟨?_, ?_, ?_⟩
  · by_contra forward
    exact strayed (FileTree.follow_of_grown grounded grows forward followed (by rw [found]; rfl))
  · rcases grows.follow (FileTree.start before.here path) path.pieces with same | missing
    · exact absurd (same.trans followed) strayed
    · rw [FileTree.locate, admitted]
      exact bind_eq_error_iff.mpr (.inr ⟨(), rfl, bind_eq_error_iff.mpr (.inl missing)⟩)
  · obtain ⟨text', found'⟩ := grows.file place text found
    exact ⟨text', FileTree.locate_eq_ok_iff.mpr ⟨admitted, followed, found'⟩⟩

/-- A text that was written to a path at which nothing was seen before. -/
theorem Kept.wrote (h : Kept before paths w) (grounded : before.tree.Grounded) (mem : path ∈ paths)
    (unseen : before.tree.pathExists before.here path = false) {text : String}
    (wrote : Wrote path text place w w') : Kept before paths w' := by
  have here := wrote.here.trans h.here
  have grows := h.grows.trans wrote.grows
  obtain ⟨admitted, followed, -⟩ := FileTree.locate_eq_ok_iff.mp wrote.located
  rw [here] at followed
  refine ⟨here, grows, fun other text' found => ?_⟩
  by_cases reached : other = place
  · subst reached
    exact .inr ⟨path, mem, detour_of_unseen grounded grows unseen admitted followed found⟩
  · rcases h.file other text' found with same | ⟨path', mem', detour⟩
    · exact .inl ((wrote.others other text' reached).mpr same)
    · exact .inr ⟨path', mem', detour.grows wrote.grows⟩

end ToolTree.Files

namespace ToolTree.Cli

open Files (Detour FileTree Kept Looks Path Storage Workspace extends_of_writeOutput looks_bind
  looks_load looks_pure run_bind writeOutput wrote_of_writeOutput)

/-! ### The requests -/

/-- Whether a request asks for nothing to be replaced. -/
def Request.Sparing : Request → Prop
  | .init _ => True
  | .validate _ => True
  | .gen options => options.force = false
  | .docs _ output? => output? = none
  | .reference => True

variable {w : Workspace}

theorem looks_runValidate (config : String) :
    Looks (runValidate config : StateM Workspace Exit) := by
  refine looks_bind (looks_load _) fun loaded => ?_
  cases loaded <;> exact looks_pure _

theorem looks_runDocs (config : String) :
    Looks (runDocs config none : StateM Workspace Exit) := by
  refine looks_bind (looks_load _) fun loaded => ?_
  cases loaded <;> exact looks_pure _

theorem kept_runInit (grounded : w.tree.Grounded) (name : String) :
    Kept w [Path.ofText configName] ((runInit name : StateM Workspace Exit) w).2 := by
  show Kept w _ ((if w.tree.pathExists w.here (Path.ofText configName) then _ else _ :
    StateM Workspace Exit) w).2
  split
  · exact .refl w _
  · next unseen =>
    cases written : (writeOutput (Path.ofText configName) (Docs.template name) :
        StateM Workspace _) w with
    | mk result w' =>
      rw [run_bind written]
      cases result with
      | error e =>
        obtain ⟨cause, rfl, added⟩ := extends_of_writeOutput written
        exact (Kept.refl w _).of_extends added
      | ok =>
        obtain ⟨place, wrote⟩ := wrote_of_writeOutput written
        exact (Kept.refl w _).wrote grounded (List.mem_singleton_self _)
          (eq_false_of_ne_true unseen) wrote

theorem GenRun.kept {options : GenOptions} {exit : Exit} {after : Workspace}
    (h : GenRun options w exit after) (grounded : w.tree.Grounded)
    (unforced : options.force = false) :
    Kept w [options.handlersPath, options.mainPath] after := by
  cases h with
  | stopped message => exact .refl w _
  | shown outputs warning => exact .refl w _
  | @delivered text tool outputs _ _ makes unseen delivery =>
    have start := Kept.refl w [outputs.handlersPath, outputs.mainPath]
    have handlersUnseen := unseen unforced outputs.handlersPath (by simp)
    have mainUnseen := unseen unforced outputs.mainPath (by simp)
    rw [← makes.handlersPath, ← makes.mainPath]
    cases delivery with
    | refused cause added => exact start.of_extends added
    | half cause wrote added =>
      exact (start.wrote grounded (by simp) handlersUnseen wrote).of_extends added
    | whole wrote wrote' =>
      have first := start.wrote grounded (by simp) handlersUnseen wrote
      exact first.wrote grounded (by simp) mainUnseen wrote'

theorem kept_runGen (grounded : w.tree.Grounded) {options : GenOptions}
    (unforced : options.force = false) :
    Kept w [options.handlersPath, options.mainPath]
      ((runGen options : StateM Workspace Exit) w).2 :=
  (genRun_runGen options w).kept grounded unforced

/-- What a line that asks for nothing to be replaced leaves of the files: each is still there, and
as it was, unless an output of `gen` makes a detour to it. -/
theorem files_spared {w : Workspace} (grounded : w.tree.Grounded) {line : List String}
    (sparing : ∀ request, Request.ofLine line = .ok request → request.Sparing)
    {place : Files.Location} {text : String}
    (found : w.tree.lookup? place = some (.file text)) :
    let after := ((run line : StateM Workspace Exit) w).2
    after.tree.lookup? place = some (.file text) ∨
      ∃ options, Request.ofLine line = .ok (.gen options) ∧
        ∃ path ∈ [options.handlersPath, options.mainPath],
          Detour w path after.tree place := by
  intro after
  cases asked : Request.ofLine line with
  | error stop =>
    have same : after = w := by
      simp only [after, run, asked]
      rfl
    rw [same]
    exact .inl found
  | ok request =>
    have ran : after = ((request.run : StateM Workspace Exit) w).2 := by
      simp only [after, run, asked]
    rw [ran]
    have spared := sparing request asked
    cases request with
    | init name =>
      rcases (kept_runInit grounded name).file place text found with same | ⟨path, mem, detour⟩
      · exact .inl same
      · -- the name of the new declaration has no step back
        rw [List.mem_singleton.mp mem] at detour
        exact absurd detour.back (by decide +kernel)
    | gen options =>
      rcases (kept_runGen grounded spared).file place text found with same | detoured
      · exact .inl same
      · exact .inr ⟨options, rfl, detoured⟩
    | validate config =>
      rw [Request.run, looks_runValidate]
      exact .inl found
    | docs config output? =>
      obtain rfl : output? = none := spared
      rw [Request.run, looks_runDocs]
      exact .inl found
    | reference => exact .inl found

/-! ### A detour -/

/-- A declaration, and a file that somebody wrote. -/
def pier : Workspace where
  tree := ⟨[
    (["commands.yaml"], .file
      "name: pier\nroot:\n  use: pier\n  short: Run a pier\n  run_func: open\n"),
    (["keep.rs"], .file "// Written by hand.\n")]⟩

/-- A line that puts the handlers beside a directory that is not there. -/
def pierLine : List String :=
  ["gen", "commands.yaml", "--output", "new/../keep.rs"]

theorem grounded_pier : pier.tree.Grounded :=
  FileTree.grounded_of_entries (by decide +kernel)

theorem ofLine_pierLine : Request.ofLine pierLine = .ok (.gen {
    config := "commands.yaml"
    moduleName := "handlers"
    output? := some "new/../keep.rs"
    main? := none
    force := false }) := by
  decide +kernel

theorem sparing_pierLine :
    ∀ request, Request.ofLine pierLine = .ok request → request.Sparing := by
  intro request asked
  rw [ofLine_pierLine] at asked
  cases asked
  rfl

/-- What the line leaves of the file. -/
theorem files_spared_pier :
    pier.tree.Grounded ∧ (∀ request, Request.ofLine pierLine = .ok request → request.Sparing) ∧
      pier.tree.lookup? ["keep.rs"] = some (.file "// Written by hand.\n") ∧
      let after := ((run pierLine : StateM Workspace Exit) pier).2
      after.tree.lookup? ["keep.rs"] = some (.file "// Written by hand.\n") ∨
        ∃ options, Request.ofLine pierLine = .ok (.gen options) ∧
          ∃ path ∈ [options.handlersPath, options.mainPath],
            Detour pier path after.tree ["keep.rs"] := by
  have found : pier.tree.lookup? ["keep.rs"] = some (.file "// Written by hand.\n") := by
    decide +kernel
  exact ⟨grounded_pier, sparing_pierLine, found,
    files_spared grounded_pier sparing_pierLine found⟩

/-- Without leave to replace anything, the file is replaced: `new` was missing when the path was
looked for, and is there when it is written to. -/
theorem detour_of_pier :
    pier.tree.Grounded ∧ (∀ request, Request.ofLine pierLine = .ok request → request.Sparing) ∧
      pier.tree.lookup? ["keep.rs"] = some (.file "// Written by hand.\n") ∧
      (((run pierLine : StateM Workspace Exit) pier).2.tree.lookup? ["keep.rs"]) ≠
        some (.file "// Written by hand.\n") :=
  ⟨grounded_pier, sparing_pierLine, by decide +kernel, by decide +kernel⟩

end ToolTree.Cli
