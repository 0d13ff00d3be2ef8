import ToolTree.Proofs.Delivering

/-!
Trees in which every entry stands in a directory, and where the paths to files end in them.

Whatever a line asks the program for, a tree that is `Grounded` stays so (`grounded_run`), since
something new is put into a directory only, and a file takes the place of no directory. In such a
tree a path to a file ends with the name of the file, behind a directory (`enters_of_locate`): a
step back out of a directory leads to a directory, and so does a step that names nothing.
-/

namespace ToolTree.Files

namespace FileTree

variable {tree : FileTree} {here place place' : Location} {path : Path}

/-! ### Changes -/

/-- Something that is put into a directory, and not a file in place of a directory. -/
theorem Grounded.set (grounded : tree.Grounded) {above : Location} {name : String} {entry : Entry}
    (directory : tree.lookup? above = some .directory)
    (kept : tree.lookup? (above ++ [name]) = some .directory → entry = .directory) :
    (tree.set (above ++ [name]) entry).Grounded := by
  intro place other present
  by_cases new : place ++ [other] = above ++ [name]
  · obtain ⟨rfl, -⟩ := List.append_inj' new rfl
    rw [lookup?_set_of_ne (by simp)]
    exact directory
  · rw [lookup?_set_of_ne (Ne.symm new)] at present
    have there := grounded place other present
    by_cases same : above ++ [name] = place
    · subst same
      rw [lookup?_set_self (by simp), kept there]
    · rw [lookup?_set_of_ne same]
      exact there

/-! ### Paths to files -/

/-- A path that leads into a directory and ends with a name there. -/
structure Enters (tree : FileTree) (here : Location) (path : Path) (above : Location)
    (name : String) : Prop where
  last : path.pieces.getLast? = some name
  followed : tree.follow (start here path) path.pieces.dropLast = .ok above
  directory : tree.lookup? above = some .directory
  named : Path.isName name = true
  forward : name ≠ ".."
  short : name.utf8ByteSize ≤ nameLimit

theorem Enters.grows {tree' : FileTree} {above : Location} {name : String}
    (enters : tree.Enters here path above name) (grown : tree.Grows tree') :
    tree'.Enters here path above name :=
  { enters with
    followed := grown.follow_eq_ok enters.followed
    directory := grown.directory above enters.directory }

/-- The parent of a directory is a directory. -/
theorem Grounded.directory_dropLast (grounded : tree.Grounded)
    (directory : tree.lookup? place = some .directory) :
    tree.lookup? place.dropLast = some .directory := by
  rcases List.eq_nil_or_concat place with rfl | ⟨above, name, rfl⟩
  · exact directory
  · rw [List.concat_eq_append, List.dropLast_concat]
    exact grounded above name (by rw [← List.concat_eq_append, directory]; rfl)

/-- A path to a file ends with the name of the file. -/
theorem enters_of_locate (grounded : tree.Grounded) {text : String}
    (located : tree.locate here path = .ok (place, .file text)) (some : path.pieces ≠ []) :
    ∃ above name, tree.Enters here path above name ∧ place = above ++ [name] := by
  obtain ⟨-, followed, found⟩ := locate_eq_ok_iff.mp located
  have last := List.getLast?_eq_some_getLast some
  rw [← List.dropLast_append_getLast? _ last, follow_append] at followed
  obtain ⟨above, front, followed⟩ := bind_eq_ok_iff.mp followed
  obtain ⟨next, stepped, ended⟩ := follow_cons_eq_ok_iff.mp followed
  cases ended
  obtain ⟨⟨⟩, entered, stepped⟩ := bind_eq_ok_iff.mp stepped
  have directory := enter_eq_ok_iff.mp entered
  split at stepped
  · cases stepped
    rw [grounded.directory_dropLast directory] at found
    cases found
  · next forward =>
    split at stepped
    · next named =>
      refine ⟨above, _, ⟨last, front, directory, named, forward, ?_⟩, named_eq_ok _ stepped⟩
      unfold FileTree.named at stepped
      split at stepped
      · cases stepped
      · next short => exact Nat.le_of_not_lt short
    · cases stepped
      rw [directory] at found
      cases found

theorem step_of_directory (directory : tree.lookup? place = some .directory) {name : String}
    (named : Path.isName name = true) (forward : name ≠ "..")
    (short : name.utf8ByteSize ≤ nameLimit) : tree.step place name = .ok (place ++ [name]) := by
  rw [step_eq_named directory named forward, named_of_short short]

/-- Steps that name nothing can be left out. -/
theorem follow_filter {pieces : List String} (followed : tree.follow place pieces = .ok place') :
    tree.follow place (pieces.filter Path.isName) = .ok place' := by
  induction pieces generalizing place with
  | nil => exact followed
  | cons piece rest ih =>
    obtain ⟨next, stepped, followed⟩ := follow_cons_eq_ok_iff.mp followed
    by_cases named : Path.isName piece = true
    · rw [List.filter_cons_of_pos named]
      exact follow_cons_eq_ok_iff.mpr ⟨next, stepped, ih followed⟩
    · rw [List.filter_cons_of_neg named]
      obtain ⟨⟨⟩, -, stepped⟩ := bind_eq_ok_iff.mp stepped
      have forward : piece ≠ ".." := by
        rintro rfl
        exact named rfl
      rw [if_neg forward, if_neg named] at stepped
      cases stepped
      exact ih followed

/-- The names below a place lead from there to what they stand for. -/
theorem follow_names (grounded : tree.Grounded) {names : List String}
    (each : ∀ name ∈ names, Path.isName name = true ∧ name ≠ ".." ∧ name.utf8ByteSize ≤ nameLimit)
    (present : (tree.lookup? (place ++ names)).isSome) :
    tree.follow place names = .ok (place ++ names) := by
  induction names generalizing place with
  | nil => exact congrArg Except.ok (List.append_nil place).symm
  | cons name rest ih =>
    obtain ⟨⟨named, forward, short⟩, others⟩ := List.forall_mem_cons.mp each
    have split : place ++ name :: rest = place ++ [name] ++ rest := by simp
    rw [split] at present ⊢
    have directory := grounded place name
      (grounded.isSome_of_prefix (List.prefix_append _ rest) present)
    exact follow_cons_eq_ok_iff.mpr
      ⟨_, step_of_directory directory named forward short, ih others present⟩

end FileTree

/-! ### Programs -/

/-- A tree stays grounded when a directory is made. -/
theorem grounded_makeDirectory (path : Path) :
    Keeps (fun w => w.tree.Grounded) (Storage.makeDirectory path) := by
  intro w grounded
  show (Workspace.update _ w).2.tree.Grounded
  unfold Workspace.update
  split
  · next tree made =>
    obtain ⟨above, name, directory, -, rfl⟩ := FileTree.place_of_makeDirectory made
    exact grounded.set directory fun _ => rfl
  · exact grounded

theorem grounded_writeText (path : Path) (text : String) :
    Keeps (fun w => w.tree.Grounded) (Storage.writeText path text) := by
  intro w grounded
  show (Workspace.update _ w).2.tree.Grounded
  unfold Workspace.update
  split
  · next tree written =>
    obtain ⟨above, name, directory, -, -, -, noDirectory, rfl⟩ :=
      FileTree.place_of_writeText written
    exact grounded.set directory fun found => absurd found noDirectory
  · exact grounded

theorem grounded_writeOutput (path : Path) (text : String) :
    Keeps (fun w => w.tree.Grounded) (writeOutput path text) :=
  keeps_writeOutput (fun above _ => grounded_makeDirectory above) (grounded_writeText path text)

theorem Looks.keeps {P : Workspace → Prop} {α : Type} {program : StateM Workspace α}
    (looks : Looks program) : Keeps P program :=
  fun w kept => (looks w).symm ▸ kept

end ToolTree.Files

namespace ToolTree.Cli

open Files (Keeps Path Storage Workspace grounded_writeOutput keeps_bind keeps_pure looks_load
  writeOutput)

section Keeps

variable {P : Workspace → Prop}
  (writing : ∀ (path : Path) text, Keeps P (writeOutput path text : StateM Workspace _))
include writing

theorem keeps_runInit (name : String) : Keeps P (runInit name) := by
  refine keeps_bind (fun _ kept => kept) fun present => ?_
  split
  · exact keeps_pure _
  · refine keeps_bind (writing _ _) fun written => ?_
    split
    · exact keeps_pure _
    · exact keeps_pure _

theorem keeps_write (outputs : Outputs) : Keeps P (outputs.write : StateM Workspace Exit) := by
  refine keeps_bind (writing _ _) fun written => ?_
  split
  · exact keeps_pure _
  · refine keeps_bind (writing _ _) fun written => ?_
    split
    · exact keeps_pure _
    · exact keeps_pure _

theorem keeps_deliver (outputs : Outputs) (force : Bool) :
    Keeps P (outputs.deliver force : StateM Workspace Exit) := by
  have looked : Files.Looks ([outputs.handlersPath, outputs.mainPath].filterM fun path =>
      (Storage.pathExists path : StateM Workspace Bool)) :=
    fun w => congrArg Prod.snd (filterM_pathExists w _)
  refine keeps_bind looked.keeps fun existing => ?_
  split
  · exact keeps_write writing outputs
  · exact keeps_pure _

theorem keeps_runGen (options : GenOptions) : Keeps P (runGen options) := by
  rw [runGen_eq]
  refine keeps_bind (looks_load _).keeps fun loaded => ?_
  split
  · exact keeps_pure _
  · refine keeps_bind (looks_embeddedPath _ _).keeps fun embedded => ?_
    split
    · exact keeps_pure _
    · split
      · exact keeps_pure _
      · exact keeps_deliver writing _ _

theorem keeps_runDocs (config : String) (output? : Option String) :
    Keeps P (runDocs config output?) := by
  refine keeps_bind (looks_load _).keeps fun loaded => ?_
  split
  · exact keeps_pure _
  · split
    · exact keeps_pure _
    · refine keeps_bind (writing _ _) fun written => ?_
      split
      · exact keeps_pure _
      · exact keeps_pure _

/-- What writing an output keeps, every run of the program keeps. -/
theorem keeps_run (line : List String) : Keeps P (run line : StateM Workspace Exit) := by
  unfold run
  split
  · exact keeps_pure _
  · next request asked =>
    cases request with
    | init name => exact keeps_runInit writing name
    | validate config =>
      refine keeps_bind (looks_load _).keeps fun loaded => ?_
      split
      · exact keeps_pure _
      · exact keeps_pure _
    | gen options => exact keeps_runGen writing options
    | docs config output? => exact keeps_runDocs writing config output?
    | reference => exact keeps_pure _

end Keeps

/-- Whatever the program is asked for, every entry still stands in a directory after it. -/
theorem grounded_run (line : List String) :
    Keeps (fun w => w.tree.Grounded) (run line : StateM Workspace Exit) :=
  keeps_run grounded_writeOutput line

end ToolTree.Cli
