import ToolTree.Proofs.Outputs

/-!
How far writing an output reaches.

Whatever comes of it, directories stay, and each that is new was missing and is what a path above
the output's leads to (`Confined`): each directory that is made keeps this, and so does the text
that is put. So writing an output changes one file at most, the one that its path leads to
(`reach_writeOutput`).
-/

namespace ToolTree.Files

namespace FileTree

variable {tree tree' : FileTree} {here place : Location} {path : Path}

/-- Slashes behind a directory lead to it. -/
theorem follow_empties {empties : List String} (empty : ∀ piece ∈ empties, piece = "")
    (directory : tree.lookup? place = some .directory) :
    tree.follow place empties = .ok place := by
  induction empties with
  | nil => rfl
  | cons piece rest ih =>
    obtain ⟨rfl, others⟩ := List.forall_mem_cons.mp empty
    refine follow_cons_eq_ok_iff.mpr ⟨place, ?_, ih others⟩
    rw [step, enter_eq_ok_iff.mpr directory]
    rfl

/-- A path leads to a directory that has the place of something new. -/
theorem locate_of_target {above : Location} {name : String} {slash : Bool}
    (aimed : tree.target here path = .ok (.entry above name slash))
    (placed : named above name = .ok place) (found : tree.lookup? place = some .directory) :
    tree.locate here path = .ok (place, .directory) := by
  obtain ⟨admitted, front, empties, spelled, empty, -, followed, directory, named, forward⟩ :=
    target_eq_entry_iff.mp aimed
  refine locate_eq_ok_iff.mpr ⟨admitted, ?_, found⟩
  rw [spelled, follow_append, followed]
  refine follow_cons_eq_ok_iff.mpr ⟨place, ?_, follow_empties empty found⟩
  rw [step_eq_named directory named forward, placed]

/-- A path leads to the directory that is made for it. -/
theorem locate_set_of_target {above : Location} {name : String} {slash : Bool}
    (aimed : tree.target here path = .ok (.entry above name slash))
    (placed : named above name = .ok place) (absent : tree.lookup? place = none) :
    (tree.set place .directory).locate here path = .ok (place, .directory) := by
  have nonempty : place ≠ [] := ne_nil_of_lookup? (by rw [absent]; simp)
  have added : tree.Grows (tree.set place .directory) := (extends_set absent .directory).grows
  have aimed' : (tree.set place .directory).target here path = .ok (.entry above name slash) := by
    rcases added.target with same | missing
    · exact same.symm.trans aimed
    · rw [aimed] at missing
      cases missing
  exact locate_of_target aimed' placed (lookup?_set_self nonempty tree _)

theorem Grows.absent (h : tree.Grows tree') (absent : tree'.lookup? place = none) :
    tree.lookup? place = none := by
  cases found : tree.lookup? place with
  | none => rfl
  | some entry =>
    cases entry with
    | directory =>
      rw [h.directory place found] at absent
      cases absent
    | file text =>
      obtain ⟨text', found'⟩ := h.file place text found
      rw [found'] at absent
      cases absent

end FileTree

variable {w w' : Workspace} {path : Path} {text : String}

/-- Nothing is gone, and each directory that is new was missing and is what a path above leads
to. -/
structure Confined (path : Path) (w w' : Workspace) : Prop where
  here : w'.here = w.here
  grows : w.tree.Grows w'.tree
  made : ∀ place, w'.tree.lookup? place = some .directory →
    w.tree.lookup? place = some .directory ∨ w.tree.lookup? place = none ∧ ∃ above,
      path.Above above ∧ w'.tree.locate w'.here above = .ok (place, .directory)

theorem Confined.refl (path : Path) (w : Workspace) : Confined path w w where
  here := rfl
  grows := .refl w.tree
  made _ found := .inl found

/-- A directory is made for a path above. -/
theorem keeps_confined_makeDirectory {above : Path} (up : path.Above above) :
    Keeps (Confined path w) (Storage.makeDirectory above) := by
  intro w' h
  show Confined path w (Workspace.update _ w').2
  unfold Workspace.update
  split
  · next tree made =>
    obtain ⟨_, _, _, place, aimed, placed, absent, rfl⟩ := FileTree.makeDirectory_eq_ok_iff.mp made
    have located := FileTree.locate_set_of_target aimed placed absent
    have added := Workspace.extends_set (w := w') absent
    refine ⟨h.here, h.grows.trans added.tree.grows, fun other found => ?_⟩
    by_cases same : place = other
    · subst same
      exact .inr ⟨h.grows.absent absent, above, up, located⟩
    · rw [FileTree.lookup?_set_of_ne same] at found
      refine (h.made other found).imp_right ?_
      rintro ⟨missing, upper, up, located⟩
      exact ⟨missing, upper, up, added.locate located⟩
  · exact h

theorem keeps_confined_writeText : Keeps (Confined path w) (Storage.writeText path text) := by
  intro w' h
  show Confined path w (Workspace.update _ w').2
  unfold Workspace.update
  split
  · next tree written =>
    obtain ⟨above, name, -, -, -, -, noDirectory, rfl⟩ := FileTree.place_of_writeText written
    have grown := FileTree.grows_set noDirectory text
    refine ⟨h.here, h.grows.trans grown, fun other found => ?_⟩
    have apart : above ++ [name] ≠ other := by
      rintro rfl
      rw [FileTree.lookup?_set_self (by simp)] at found
      cases found
    have known := found
    rw [FileTree.lookup?_set_of_ne apart] at known
    refine (h.made other known).imp_right ?_
    rintro ⟨missing, upper, up, located⟩
    exact ⟨missing, upper, up, grown.locate located found⟩
  · exact h

theorem confined_writeOutput (path : Path) (text : String) (w : Workspace) :
    Confined path w ((writeOutput path text : StateM Workspace _) w).2 :=
  keeps_writeOutput (fun _ up => keeps_confined_makeDirectory up) keeps_confined_writeText w
    (.refl path w)

/-- Writing an output touches what its path leads to and the missing directories above it. When it
is done, the text is read from the path and every other file is as before; when it is refused, for
its own path, every file is. -/
theorem reach_writeOutput (path : Path) (text : String) (w : Workspace) :
    let (result, w') := (writeOutput path text : StateM Workspace (Except WriteError Unit)) w
    Confined path w w' ∧ match result with
      | .ok () => w'.tree.readText w'.here path = .ok (some text) ∧
        ∃ place, Wrote path text place w w'
      | .error e => e.path = path ∧ SameFiles w w' := by
  have confined := confined_writeOutput path text w
  cases ran : (writeOutput path text : StateM Workspace (Except WriteError Unit)) w with
  | mk result w' =>
    rw [ran] at confined
    refine ⟨confined, ?_⟩
    cases result with
    | ok => exact ⟨readText_of_writeOutput ran, wrote_of_writeOutput ran⟩
    | error e =>
      obtain ⟨cause, rfl, added⟩ := extends_of_writeOutput ran
      exact ⟨rfl, added.sameFiles⟩

end ToolTree.Files
