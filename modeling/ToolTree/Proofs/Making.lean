import ToolTree.Proofs.Confining
import ToolTree.Proofs.Embedding

/-!
When writing an output succeeds.

Directories that are missing above a path are made from the highest to the lowest, each in one that
is there by then. So a text is written wherever names lead on from a directory and neither a file
stands for one of the directories nor a directory for the file (`writeOutput_of_room`).
-/

namespace ToolTree.Files

namespace Path

/-! ### Parents -/

theorem text_append (anchor : Anchor) (front rest : List String) :
    ∃ more, (Path.mk anchor (front ++ rest)).text = (Path.mk anchor front).text ++ more := by
  cases front with
  | nil => exact ⟨String.intercalate "/" rest, by simp [text]⟩
  | cons piece pieces =>
    refine ⟨String.ofList (rest.flatMap fun piece => '/' :: piece.toList), String.toList_inj.mp ?_⟩
    rw [text, text, List.cons_append, String.toList_append, String.toList_append,
      String.toList_append, toList_intercalate, toList_intercalate, List.flatMap_append,
      String.toList_ofList]
    simp only [List.append_assoc]

/-- A path with a name in it has a text. -/
theorem text_ne_empty {path : Path} {name : String} (mem : name ∈ path.pieces)
    (filled : name ≠ "") : path.text ≠ "" := by
  obtain ⟨anchor, pieces⟩ := path
  intro empty
  cases pieces with
  | nil => cases mem
  | cons piece rest =>
    have chars := congrArg String.toList empty
    simp only [text, String.toList_append, toList_intercalate, String.toList_empty,
      List.append_eq_nil_iff, List.flatMap_eq_nil_iff] at chars
    rcases List.mem_cons.mp mem with rfl | mem
    · exact filled (String.toList_eq_nil_iff.mp chars.2.1)
    · cases chars.2.2 name mem

/-- The system takes a path that begins one that it takes, unless that is empty. -/
theorem admit_of_prefix {anchor : Anchor} {front pieces : List String} (begins : front <+: pieces)
    (admitted : Path.admit ⟨anchor, pieces⟩ = .ok ()) :
    Path.text ⟨anchor, front⟩ = "" ∨ Path.admit ⟨anchor, front⟩ = .ok () := by
  obtain ⟨rest, rfl⟩ := begins
  obtain ⟨free, -, short⟩ := admit_eq_ok_iff.mp admitted
  obtain ⟨more, spelled⟩ := text_append anchor front rest
  rw [spelled, String.toList_append, List.mem_append, not_or] at free
  rw [spelled, String.utf8ByteSize_append] at short
  by_cases empty : Path.text ⟨anchor, front⟩ = ""
  · exact .inl empty
  · exact .inr (admit_eq_ok_iff.mpr ⟨free.1, empty, Nat.le_of_add_right_le short⟩)

theorem parent?_of_concat {path : Path} {front : List String} {name : String}
    (spelled : path.pieces = front ++ [name]) (named : isName name = true) :
    path.parent? = some ⟨path.anchor, trimmed front⟩ := by
  have last : path.pieces.getLast? = some name := by
    rw [spelled]
    exact List.getLast?_concat
  rw [parent?_of_getLast? last named, spelled, List.dropLast_concat]

theorem admit_of_concat {path : Path} {front : List String} {name : String}
    (spelled : path.pieces = front ++ [name]) (admitted : path.admit = .ok ()) :
    Path.text ⟨path.anchor, trimmed front⟩ = "" ∨
      Path.admit ⟨path.anchor, trimmed front⟩ = .ok () := by
  have begins : trimmed front <+: path.pieces :=
    spelled ▸ (trimmed_prefix_self front).trans (List.prefix_append front [name])
  exact admit_of_prefix begins admitted

end Path

namespace FileTree

variable {tree tree' : FileTree} {here place place' : Location} {path : Path}

/-- Steps that name nothing lead nowhere else. -/
theorem eq_of_follow {pieces : List String} (nameless : ∀ piece ∈ pieces, ¬ Path.isName piece)
    (followed : tree.follow place pieces = .ok place') : place' = place := by
  have same := follow_filter followed
  rw [List.filter_eq_nil_iff.mpr nameless] at same
  cases same
  rfl

/-- Steps at the end that name nothing can be left out. -/
theorem follow_trimmed {pieces : List String} (followed : tree.follow place pieces = .ok place') :
    tree.follow place (Path.trimmed pieces) = .ok place' := by
  obtain ⟨rest, nameless, split⟩ := Path.exists_trimmed pieces
  rw [split, follow_append] at followed
  obtain ⟨next, front, followed⟩ := bind_eq_ok_iff.mp followed
  obtain rfl := eq_of_follow nameless followed
  exact front

/-- No directory is made where something is. -/
theorem makeDirectory_of_locate {entry : Entry}
    (located : tree.locate here path = .ok (place, entry)) :
    tree.makeDirectory here path = .error .exists := by
  obtain ⟨admitted, followed, found⟩ := locate_eq_ok_iff.mp located
  unfold makeDirectory
  rcases Text.exists_last_not (· = "") path.pieces with
    empty | ⟨front, last, empties, spelled, filled, empty⟩
  · rw [target_of_empty admitted empty]
    rfl
  · rw [spelled, follow_append] at followed
    obtain ⟨above, front_followed, followed⟩ := bind_eq_ok_iff.mp followed
    obtain ⟨next, stepped, ended⟩ := follow_cons_eq_ok_iff.mp followed
    obtain ⟨⟨⟩, entered, -⟩ := bind_eq_ok_iff.mp stepped
    have directory := enter_eq_ok_iff.mp entered
    have aimed : tree.target here path = if last = "." ∨ last = ".." then .ok .directory
        else .ok (.entry above last (!empties.isEmpty)) := by
      rw [target_eq admitted spelled filled empty, front_followed]
      show tree.enter above >>= _ = _
      rw [entered]
      rfl
    rw [aimed]
    split
    · rfl
    · next forward =>
      obtain ⟨own, up⟩ := not_or.mp forward
      obtain rfl := eq_of_follow (fun piece mem => by simp [empty piece mem, Path.isName]) ended
      rw [step_eq_named directory (by simp [Path.isName, filled, own]) up] at stepped
      show named above last >>= _ = _
      rw [stepped]
      exact if_pos (by rw [found]; rfl)

/-- A name behind what leads to a directory is a place for something new. -/
theorem target_of_follow {front : List String} {name : String} (admitted : path.admit = .ok ())
    (spelled : path.pieces = front ++ [name])
    (followed : tree.follow (start here path) front = .ok place)
    (directory : tree.lookup? place = some .directory) (proper : IsEntryName name) :
    tree.target here path = .ok (.entry place name false) :=
  target_eq_entry_iff.mpr ⟨admitted, front, [], spelled, by simp, rfl, followed, directory,
    proper.named, proper.forward⟩

/-- What a directory is made in is not missing when there is a place for it. -/
theorem makeDirectory_ne_noEntry {above : Location} {name : String} {slash : Bool}
    (aimed : tree.target here path = .ok (.entry above name slash))
    (short : name.utf8ByteSize ≤ nameLimit) : tree.makeDirectory here path ≠ .error .noEntry := by
  intro failed
  unfold makeDirectory at failed
  rw [aimed] at failed
  replace failed : (named above name >>= fun location =>
      if (tree.lookup? location).isSome then .error .exists
      else .ok (tree.set location .directory)) = .error OsError.noEntry := failed
  rw [named_of_short short] at failed
  rcases bind_eq_error_iff.mp failed with failed | ⟨location, -, failed⟩
  · cases failed
  · split at failed
    · cases failed
    · cases failed

end FileTree

/-! ### Directories -/

variable {w w' w'' : Workspace} {path : Path} {place : Location}

/-- A directory is at a place, and at most those above it are new. -/
structure Opens (place : Location) (w w' : Workspace) : Prop where
  added : w.Extends w'
  directory : w'.tree.lookup? place = some .directory
  others : ∀ other, w'.tree.lookup? other = some .directory →
    w.tree.lookup? other = some .directory ∨ other <+: place

theorem Opens.refl (directory : w.tree.lookup? place = some .directory) : Opens place w w where
  added := .refl w
  directory := directory
  others _ found := .inl found

theorem Opens.trans {above : Location} (h : Opens above w w') (h' : Opens place w' w'')
    (up : above <+: place) : Opens place w w'' where
  added := h.added.trans h'.added
  directory := h'.directory
  others other found := by
    rcases h'.others other found with found | up'
    · exact (h.others other found).imp_right (·.trans up)
    · exact .inr up'

theorem ensureDirectory_of_locate (located : w.tree.locate w.here path = .ok (place, .directory)) :
    (ensureDirectory path : StateM Workspace _) w = (.ok (), w) := by
  have refused : (Storage.makeDirectory path : StateM Workspace _) w = (.error .exists, w) :=
    Workspace.update_of_error (FileTree.makeDirectory_of_locate located)
  have present : (Storage.isDirectory path : StateM Workspace _) w = (true, w) := by
    show (w.tree.isDirectory w.here path, w) = _
    rw [FileTree.isDirectory, located]
  unfold ensureDirectory
  rw [run_bind refused]
  dsimp only
  rw [run_bind present]
  rfl

theorem ensureDirectory_of_target {above : Location} {name : String} {slash : Bool}
    (aimed : w.tree.target w.here path = .ok (.entry above name slash))
    (short : name.utf8ByteSize ≤ nameLimit)
    (clear : ∀ text, w.tree.lookup? (above ++ [name]) ≠ some (.file text)) :
    ∃ w', (ensureDirectory path : StateM Workspace _) w = (.ok (), w') ∧
      w'.tree.locate w'.here path = .ok (above ++ [name], .directory) ∧
      Opens (above ++ [name]) w w' := by
  have placed : FileTree.named above name = .ok (above ++ [name]) := FileTree.named_of_short short
  cases found : w.tree.lookup? (above ++ [name]) with
  | none =>
    have made := FileTree.makeDirectory_eq_ok_iff.mpr
      ⟨above, name, slash, _, aimed, placed, found, rfl⟩
    have run : (Storage.makeDirectory path : StateM Workspace _) w =
        (.ok (), { w with tree := w.tree.set (above ++ [name]) .directory }) :=
      Workspace.update_of_ok made
    refine ⟨_, by rw [ensureDirectory, run_bind run]; rfl,
      FileTree.locate_set_of_target aimed placed found, Workspace.extends_set found,
      FileTree.lookup?_set_self (by simp) w.tree _, fun other there => ?_⟩
    by_cases same : above ++ [name] = other
    · exact .inr (same ▸ List.prefix_rfl)
    · rw [FileTree.lookup?_set_of_ne same] at there
      exact .inl there
  | some entry =>
    cases entry with
    | file text => exact absurd found (clear text)
    | directory =>
      have located := FileTree.locate_of_target aimed placed found
      exact ⟨w, ensureDirectory_of_locate located, located, .refl found⟩

/-- A directory that cannot be made for want of its parent is made after that. -/
theorem makeDirectories_eq {above : Path} (filled : path.text ≠ "")
    (up : path.parent? = some above) :
    (makeDirectories path : StateM Workspace (Except OsError Unit)) = do
      match ← Storage.makeDirectory path with
      | .error .noEntry =>
        match ← makeDirectories above with
        | .error e => return .error e
        | .ok () => ensureDirectory path
      | .ok () => return .ok ()
      | .error e => if ← Storage.isDirectory path then return .ok () else return .error e := by
  rw [makeDirectories, if_neg filled]
  refine congrArg _ (funext fun made => ?_)
  cases made with
  | ok => rfl
  | error cause =>
    cases cause with
    | noEntry =>
      dsimp only
      split
      · next none => simp [up] at none
      · next parent same =>
        rw [up] at same
        cases same
        rfl
    | _ => rfl

theorem makeDirectories_of_noEntry {above : Path} (filled : path.text ≠ "")
    (up : path.parent? = some above)
    (missing : w.tree.makeDirectory w.here path = .error .noEntry)
    (ready : (makeDirectories above : StateM Workspace _) w = (.ok (), w')) :
    (makeDirectories path : StateM Workspace _) w =
      (ensureDirectory path : StateM Workspace _) w' := by
  have run : (Storage.makeDirectory path : StateM Workspace _) w = (.error .noEntry, w) :=
    Workspace.update_of_error missing
  rw [makeDirectories_eq filled up, run_bind run]
  dsimp only
  rw [run_bind ready]

/-- Only a directory whose parent may be missing is tried for a second time. -/
theorem makeDirectories_eq_ensureDirectory (filled : path.text ≠ "")
    (possible : w.tree.makeDirectory w.here path ≠ .error .noEntry) :
    (makeDirectories path : StateM Workspace _) w =
      (ensureDirectory path : StateM Workspace _) w := by
  unfold makeDirectories ensureDirectory
  rw [if_neg filled]
  cases made : w.tree.makeDirectory w.here path with
  | ok tree =>
    have run : (Storage.makeDirectory path : StateM Workspace _) w = (.ok (), { w with tree }) :=
      Workspace.update_of_ok made
    rw [run_bind run, run_bind run]
  | error cause =>
    have run : (Storage.makeDirectory path : StateM Workspace _) w = (.error cause, w) :=
      Workspace.update_of_error made
    rw [run_bind run, run_bind run]
    cases cause with
    | noEntry => exact absurd made possible
    | _ => rfl

/-- When a directory can be made above it, so can one more. -/
theorem makeDirectories_of_opens {above : Path} {name : String} {slash : Bool}
    (filled : path.text ≠ "") (up : path.parent? = some above)
    (ready : (makeDirectories above : StateM Workspace _) w = (.ok (), w'))
    (opened : Opens place w w')
    (aimed : w'.tree.target w'.here path = .ok (.entry place name slash))
    (short : name.utf8ByteSize ≤ nameLimit)
    (clear : ∀ text, w.tree.lookup? (place ++ [name]) ≠ some (.file text)) :
    ∃ w'', (makeDirectories path : StateM Workspace _) w = (.ok (), w'') ∧
      w''.tree.locate w''.here path = .ok (place ++ [name], .directory) ∧
      Opens (place ++ [name]) w w'' := by
  rcases opened.added.tree.grows.target with same | missing
  · -- the directory above was there
    have aimed₀ : w.tree.target w.here path = .ok (.entry place name slash) := by
      rw [same, ← opened.added.here]
      exact aimed
    rw [makeDirectories_eq_ensureDirectory filled
      (FileTree.makeDirectory_ne_noEntry aimed₀ short)]
    exact ensureDirectory_of_target aimed₀ short clear
  · have refused : w.tree.makeDirectory w.here path = .error .noEntry := by
      rw [FileTree.makeDirectory, missing]
      rfl
    rw [makeDirectories_of_noEntry filled up refused ready]
    obtain ⟨w'', done, located, opened'⟩ := ensureDirectory_of_target aimed short
      fun text found => clear text (opened.added.file _ text found)
    exact ⟨w'', done, located, opened.trans opened' (List.prefix_append place [name])⟩

/-- Pieces that lead to a directory, and names below it that stand for no file. -/
structure Clear (w : Workspace) (start : Location) (known : List String) (base : Location)
    (names : List String) : Prop where
  followed : w.tree.follow start known = .ok base
  directory : w.tree.lookup? base = some .directory
  proper : ∀ name ∈ names, IsEntryName name
  clear : ∀ front, front <+: names → ∀ text, w.tree.lookup? (base ++ front) ≠ some (.file text)

theorem Clear.mono {start base : Location} {known names more : List String}
    (h : Clear w start known base (names ++ more)) : Clear w start known base names :=
  { h with
    proper := fun name mem => h.proper name (List.mem_append_left more mem)
    clear := fun front begins => h.clear front (begins.trans (List.prefix_append names more)) }

/-- The directories that names below a directory stand for are made where they are missing. -/
theorem makeDirectories_of_clear {known names : List String} {base : Location} (path : Path)
    (h : Clear w (FileTree.start w.here path) known base names)
    (spelled : path.pieces = Path.trimmed (known ++ names))
    (taken : path.text = "" ∨ path.admit = .ok ()) :
    ∃ w', (makeDirectories path : StateM Workspace _) w = (.ok (), w') ∧
      w'.tree.follow (FileTree.start w.here path) (known ++ names) = .ok (base ++ names) ∧
      Opens (base ++ names) w w' := by
  -- the lowest name is taken off, as the search for a directory that is there goes up
  induction names using List.reverseRecOn generalizing path with
  | nil =>
    rw [List.append_nil] at *
    rw [List.append_nil]
    refine ⟨w, ?_, h.followed, .refl h.directory⟩
    by_cases empty : path.text = ""
    · rw [makeDirectories, if_pos empty]
      rfl
    · have located : w.tree.locate w.here path = .ok (base, .directory) := by
        refine FileTree.locate_eq_ok_iff.mpr ⟨taken.resolve_left empty, ?_, h.directory⟩
        rw [spelled]
        exact FileTree.follow_trimmed h.followed
      have present := FileTree.makeDirectory_of_locate located
      rw [makeDirectories_eq_ensureDirectory empty (by rw [present]; simp)]
      exact ensureDirectory_of_locate located
  | append_singleton names name ih =>
    have proper := h.proper name (by simp)
    have whole : path.pieces = known ++ names ++ [name] := by
      rw [spelled, ← List.append_assoc]
      exact Path.trimmed_of_getLast? List.getLast?_concat proper.named
    have filled : path.text ≠ "" :=
      Path.text_ne_empty (by rw [whole]; simp) proper.filled
    have admitted := taken.resolve_left filled
    obtain ⟨w₁, readied, led, opened⟩ :=
      ih ⟨path.anchor, Path.trimmed (known ++ names)⟩ h.mono rfl
        (Path.admit_of_concat whole admitted)
    have aimed : w₁.tree.target w₁.here path = .ok (.entry (base ++ names) name false) := by
      rw [opened.added.here]
      exact FileTree.target_of_follow admitted whole led opened.directory proper
    have free : ∀ text, w.tree.lookup? (base ++ names ++ [name]) ≠ some (.file text) := by
      rw [List.append_assoc]
      exact h.clear _ List.prefix_rfl
    obtain ⟨w', done, located, opened⟩ := makeDirectories_of_opens filled
      (Path.parent?_of_concat whole proper.named) readied opened aimed proper.short free
    refine ⟨w', done, ?_, by rwa [← List.append_assoc]⟩
    obtain ⟨-, followed, -⟩ := FileTree.locate_eq_ok_iff.mp located
    rw [whole, opened.added.here] at followed
    rw [← List.append_assoc, ← List.append_assoc]
    exact followed

/-! ### Outputs -/

/-- A path leads to a place for a file: a name behind directories that are there or can be made. -/
structure Room (w : Workspace) (path : Path) (known names : List String) (name : String)
    (base : Location) : Prop where
  admitted : path.admit = .ok ()
  spelled : path.pieces = known ++ names ++ [name]
  clear : Clear w (FileTree.start w.here path) known base names
  proper : IsEntryName name
  free : w.tree.lookup? (base ++ names ++ [name]) ≠ some .directory

/-- A text is written where there is room for a file. -/
theorem writeOutput_of_room {known names : List String} {name : String} {base : Location}
    (room : Room w path known names name base) (text : String) :
    ∃ w', (writeOutput path text : StateM Workspace _) w = (.ok (), w') ∧
      w'.tree.lookup? (base ++ names ++ [name]) = some (.file text) := by
  obtain ⟨w', readied, led, opened⟩ :=
    makeDirectories_of_clear ⟨path.anchor, Path.trimmed (known ++ names)⟩ room.clear rfl
      (Path.admit_of_concat room.spelled room.admitted)
  have parents : (makeParents path : StateM Workspace _) w = (.ok (), w') := by
    rw [makeParents, Path.parent?_of_concat room.spelled room.proper.named]
    exact readied
  have aimed : w'.tree.target w'.here path = .ok (.entry (base ++ names) name false) := by
    rw [opened.added.here]
    exact FileTree.target_of_follow room.admitted room.spelled led opened.directory room.proper
  have placed : FileTree.named (base ++ names) name = .ok (base ++ names ++ [name]) :=
    FileTree.named_of_short room.proper.short
  have free : w'.tree.lookup? (base ++ names ++ [name]) ≠ some .directory := by
    intro found
    rcases opened.others _ found with found | above
    · exact room.free found
    · have shorter := above.length_le
      rw [List.length_append, List.length_singleton] at shorter
      omega
  have written : w'.tree.writeText w'.here path text =
      .ok (w'.tree.set (base ++ names ++ [name]) (.file text)) :=
    FileTree.writeText_eq_ok_iff.mpr ⟨_, name, _, aimed, placed, free, rfl⟩
  have run : (Storage.writeText path text : StateM Workspace _) w' =
      (.ok (), { w' with tree := w'.tree.set (base ++ names ++ [name]) (.file text) }) :=
    Workspace.update_of_ok written
  have done : (writeOutput path text : StateM Workspace _) w =
      (.ok (), { w' with tree := w'.tree.set (base ++ names ++ [name]) (.file text) }) := by
    rw [writeOutput_eq, run_bind parents]
    dsimp only
    rw [run_bind run]
    rfl
  exact ⟨_, done, FileTree.lookup?_set_self (FileTree.ne_nil_of_lookup? free) w'.tree _⟩

example : ((writeOutput (.ofText "out/./gen/main.rs") "mod a;" : StateM Workspace _) {}).2.tree =
    ⟨[(["out"], .directory), (["out", "gen"], .directory),
      (["out", "gen", "main.rs"], .file "mod a;")]⟩ := by
  decide +kernel

end ToolTree.Files
