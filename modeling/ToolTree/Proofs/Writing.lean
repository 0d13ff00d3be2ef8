import Mathlib.Data.List.TakeWhile
import Mathlib.Logic.Relation
import ToolTree.Files.Storage
import ToolTree.Proofs.Following

/-!
What writing an output does to a tree of files.

What making a directory keeps, making all that are missing above a path keeps (`Keeps`). A program
`Adds` when it makes directories at most. Making the directories above a path adds, also when one of
them cannot be made, so writing an output comes to one of two things (`Outcome`): directories are
added and nothing more is done, or the text is put where the path leads by then, and is the one file
that is not as before (`Wrote`).
-/

namespace ToolTree.Files

namespace FileTree

variable {tree tree' : FileTree} {here place : Location} {path : Path}

/-- Slashes alone lead to a directory that is there. -/
theorem target_of_empty (admitted : path.admit = .ok ())
    (empty : ∀ piece ∈ path.pieces, piece = "") : tree.target here path = .ok .directory := by
  have blank : ∀ piece ∈ path.pieces.reverse, (piece == "") = true := by simpa using empty
  unfold target
  rw [admitted, List.dropWhile_eq_nil_iff.mpr blank]
  rfl

/-- All pieces but the last that is not empty have to be there for something new. -/
theorem target_eq {front empties : List String} {last : String} (admitted : path.admit = .ok ())
    (spelled : path.pieces = front ++ last :: empties) (filled : last ≠ "")
    (empty : ∀ piece ∈ empties, piece = "") :
    tree.target here path = do
      let above ← tree.follow (start here path) front
      tree.enter above
      if last = "." ∨ last = ".." then return .directory
      else return .entry above last (!empties.isEmpty) := by
  have whole : (path.pieces.reverse.dropWhile (· == "")).reverse = front ++ [last] := by
    have reversed : path.pieces.reverse = empties.reverse ++ last :: front.reverse := by
      simp [spelled]
    have blank : ∀ piece ∈ empties.reverse, (piece == "") = true := by simpa using empty
    rw [reversed, List.dropWhile_append_of_pos blank,
      List.dropWhile_cons_of_neg (by simp [filled]), List.reverse_cons, List.reverse_reverse]
  have slashed : decide ((front ++ [last]).length < path.pieces.length) = !empties.isEmpty := by
    rw [spelled]
    cases empties with
    | nil => simp
    | cons piece rest => simp
  unfold target
  rw [admitted, whole]
  simp only [List.getLast?_concat, List.dropLast_concat, slashed]
  rfl

/-- The place of something new is a name in a directory that the pieces before the name lead to.
Slashes may follow the name. -/
theorem target_eq_entry_iff {above : Location} {name : String} {slash : Bool} :
    tree.target here path = .ok (.entry above name slash) ↔
      path.admit = .ok () ∧ ∃ front empties, path.pieces = front ++ name :: empties ∧
        (∀ piece ∈ empties, piece = "") ∧ slash = !empties.isEmpty ∧
        tree.follow (start here path) front = .ok above ∧
        tree.lookup? above = some .directory ∧ Path.isName name = true ∧ name ≠ ".." := by
  constructor
  · intro h
    have admitted : path.admit = .ok () := (bind_eq_ok_iff.mp h).elim fun ⟨⟩ h => h.1
    rcases Text.exists_last_not (· = "") path.pieces with
      empty | ⟨front, last, empties, spelled, filled, empty⟩
    · rw [target_of_empty admitted empty] at h
      cases h
    · rw [target_eq admitted spelled filled empty] at h
      obtain ⟨location, followed, h⟩ := bind_eq_ok_iff.mp h
      obtain ⟨⟨⟩, entered, h⟩ := bind_eq_ok_iff.mp h
      split at h
      · cases h
      · next forward =>
        cases h
        obtain ⟨own, up⟩ := not_or.mp forward
        refine ⟨admitted, front, empties, spelled, empty, rfl, followed, enter_eq_ok_iff.mp entered,
          ?_, up⟩
        simp [Path.isName, filled, own]
  · rintro ⟨admitted, front, empties, spelled, empty, rfl, followed, directory, named, forward⟩
    simp only [Path.isName, Bool.and_eq_true, bne_iff_ne] at named
    rw [target_eq admitted spelled named.1 empty, followed]
    refine bind_eq_ok_iff.mpr ⟨above, rfl, bind_eq_ok_iff.mpr
      ⟨(), enter_eq_ok_iff.mpr directory, ?_⟩⟩
    rw [if_neg (not_or.mpr ⟨named.2, forward⟩)]
    rfl

/-- A place for something new is the same in a tree that has grown, unless something was missing
above it. -/
theorem Grows.target (h : tree.Grows tree') : tree.target here path = tree'.target here path ∨
    tree.target here path = .error .noEntry := by
  cases admitted : path.admit with
  | error e =>
    refine .inl ?_
    unfold FileTree.target
    rw [admitted]
    rfl
  | ok =>
    rcases Text.exists_last_not (· = "") path.pieces with
      empty | ⟨front, last, empties, spelled, filled, empty⟩
    · rw [target_of_empty admitted empty, target_of_empty admitted empty]
      exact .inl rfl
    · rw [target_eq admitted spelled filled empty, target_eq admitted spelled filled empty]
      rcases h.follow (start here path) front with same | missing
      · rw [same]
        cases tree'.follow (start here path) front with
        | error e => exact .inl rfl
        | ok above =>
          rcases h.enter above with same | absent
          · exact .inl (congrArg (· >>= fun _ => _) same)
          · refine .inr (bind_eq_error_iff.mpr (.inr ⟨above, rfl, ?_⟩))
            exact bind_eq_error_iff.mpr (.inl (enter_eq_noEntry_iff.mpr absent))
      · rw [missing]
        exact .inr rfl

/-- A place for something new, with no slash behind its name, is what the path leads to. -/
theorem follow_of_target {above : Location} {name : String}
    (h : tree.target here path = .ok (.entry above name false)) :
    path.admit = .ok () ∧ path.pieces ≠ [] ∧
      tree.follow (start here path) path.pieces = named above name := by
  obtain ⟨admitted, front, empties, spelled, -, unslashed, followed, directory, named, forward⟩ :=
    target_eq_entry_iff.mp h
  obtain rfl : empties = [] := by simpa using unslashed
  refine ⟨admitted, by simp [spelled], ?_⟩
  rw [spelled, follow_append, followed]
  calc tree.follow above [name]
    _ = tree.step above name >>= fun place => .ok place := follow_cons tree above name []
    _ = tree.step above name := by cases tree.step above name <;> rfl
    _ = FileTree.named above name := step_eq_named directory named forward

/-- What is at a path is at the place that it leads to. -/
theorem locate_eq_ok_iff {entry : Entry} :
    tree.locate here path = .ok (place, entry) ↔
      path.admit = .ok () ∧ tree.follow (start here path) path.pieces = .ok place ∧
        tree.lookup? place = some entry := by
  unfold locate
  constructor
  · intro h
    obtain ⟨⟨⟩, admitted, h⟩ := bind_eq_ok_iff.mp h
    obtain ⟨location, followed, h⟩ := bind_eq_ok_iff.mp h
    split at h
    · next found =>
      cases h
      exact ⟨admitted, followed, found⟩
    · cases h
  · rintro ⟨admitted, followed, found⟩
    rw [admitted]
    exact bind_eq_ok_iff.mpr ⟨(), rfl, bind_eq_ok_iff.mpr ⟨place, followed, by rw [found]; rfl⟩⟩

/-- A path leads to the same place in a tree that has grown, and to what is there now. -/
theorem Grows.locate (h : tree.Grows tree') {entry entry' : Entry}
    (located : tree.locate here path = .ok (place, entry))
    (found : tree'.lookup? place = some entry') : tree'.locate here path = .ok (place, entry') := by
  obtain ⟨admitted, followed, -⟩ := locate_eq_ok_iff.mp located
  exact locate_eq_ok_iff.mpr ⟨admitted, h.follow_eq_ok followed, found⟩

/-- The text of a file is read where the path leads. -/
theorem readText_eq_some_iff {text : String} : tree.readText here path = .ok (some text) ↔
    ∃ place, tree.locate here path = .ok (place, .file text) := by
  unfold readText
  constructor
  · intro read
    obtain ⟨⟨place, entry⟩, located, read⟩ := bind_eq_ok_iff.mp read
    cases entry with
    | file other =>
      cases read
      exact ⟨place, located⟩
    | directory => cases read
  · rintro ⟨place, located⟩
    rw [located]
    rfl

/-! ### The operations -/

/-- A directory is made under a name that stands for nothing yet. -/
theorem makeDirectory_eq_ok_iff : tree.makeDirectory here path = .ok tree' ↔
    ∃ above name slash location, tree.target here path = .ok (.entry above name slash) ∧
      named above name = .ok location ∧ tree.lookup? location = none ∧
      tree' = tree.set location .directory := by
  unfold makeDirectory
  constructor
  · intro made
    obtain ⟨target, aimed, made⟩ := bind_eq_ok_iff.mp made
    split at made
    · cases made
    · next above name slash =>
      obtain ⟨location, named, made⟩ := bind_eq_ok_iff.mp made
      split at made
      · cases made
      · next absent =>
        cases made
        exact ⟨above, name, slash, location, aimed, named, Option.not_isSome_iff_eq_none.mp absent,
          rfl⟩
  · rintro ⟨above, name, slash, location, aimed, named, absent, rfl⟩
    refine bind_eq_ok_iff.mpr ⟨_, aimed, bind_eq_ok_iff.mpr ⟨location, named, ?_⟩⟩
    rw [if_neg (by simp [absent])]
    rfl

/-- A directory is made in a directory, where nothing was. -/
theorem place_of_makeDirectory (made : tree.makeDirectory here path = .ok tree') :
    ∃ above name, tree.lookup? above = some .directory ∧ tree.lookup? (above ++ [name]) = none ∧
      tree' = tree.set (above ++ [name]) .directory := by
  obtain ⟨above, name, slash, location, aimed, named, absent, rfl⟩ :=
    makeDirectory_eq_ok_iff.mp made
  obtain ⟨-, front, empties, -, -, -, -, directory, -⟩ := target_eq_entry_iff.mp aimed
  obtain rfl := named_eq_ok name named
  exact ⟨above, name, directory, absent, rfl⟩

/-- A text is written under a name that stands for no directory, with no slash behind it. -/
theorem writeText_eq_ok_iff {text : String} : tree.writeText here path text = .ok tree' ↔
    ∃ above name location, tree.target here path = .ok (.entry above name false) ∧
      named above name = .ok location ∧ tree.lookup? location ≠ some .directory ∧
      tree' = tree.set location (.file text) := by
  unfold writeText
  constructor
  · intro written
    obtain ⟨target, aimed, written⟩ := bind_eq_ok_iff.mp written
    split at written
    · cases written
    · cases written
    · next above name =>
      obtain ⟨location, named, written⟩ := bind_eq_ok_iff.mp written
      split at written
      · cases written
      · next noDirectory =>
        cases written
        exact ⟨above, name, location, aimed, named, noDirectory, rfl⟩
  · rintro ⟨above, name, location, aimed, named, noDirectory, rfl⟩
    refine bind_eq_ok_iff.mpr ⟨_, aimed, bind_eq_ok_iff.mpr ⟨location, named, ?_⟩⟩
    rw [if_neg noDirectory]
    rfl

/-- A text is written where the path leads, in a directory, and no directory is there. -/
theorem place_of_writeText {text : String} (written : tree.writeText here path text = .ok tree') :
    ∃ above name, tree.lookup? above = some .directory ∧ path.admit = .ok () ∧ path.pieces ≠ [] ∧
      tree.follow (start here path) path.pieces = .ok (above ++ [name]) ∧
      tree.lookup? (above ++ [name]) ≠ some .directory ∧
      tree' = tree.set (above ++ [name]) (.file text) := by
  obtain ⟨above, name, location, aimed, named, noDirectory, rfl⟩ := writeText_eq_ok_iff.mp written
  obtain ⟨admitted, nonempty, followed⟩ := follow_of_target aimed
  obtain ⟨-, front, empties, -, -, -, -, directory, -⟩ := target_eq_entry_iff.mp aimed
  obtain rfl := named_eq_ok name named
  exact ⟨above, name, directory, admitted, nonempty, followed.trans named, noDirectory, rfl⟩

end FileTree

/-! ### Programs -/

/-- More directories may be in the workspace than before, and nothing else is changed. -/
structure Workspace.Extends (w w' : Workspace) : Prop where
  here : w'.here = w.here
  tree : w.tree.Extends w'.tree
  file : ∀ place text, w'.tree.lookup? place = some (.file text) →
    w.tree.lookup? place = some (.file text)

theorem Workspace.Extends.refl (w : Workspace) : w.Extends w :=
  ⟨rfl, .refl _, fun _ _ found => found⟩

theorem Workspace.Extends.trans {w w' w'' : Workspace} (h : w.Extends w') (h' : w'.Extends w'') :
    w.Extends w'' where
  here := h'.here.trans h.here
  tree := h.tree.trans h'.tree
  file place text found := h.file place text (h'.file place text found)

/-- A workspace with one more directory. -/
theorem Workspace.extends_set {w : Workspace} {place : Location}
    (absent : w.tree.lookup? place = none) :
    w.Extends { w with tree := w.tree.set place .directory } := by
  refine ⟨rfl, FileTree.extends_set absent _, fun other text found => ?_⟩
  by_cases same : place = other
  · subst same
    by_cases named : place = []
    · subst named
      simp [FileTree.lookup?] at absent
    · rw [FileTree.lookup?_set_self named] at found
      cases found
  · rwa [FileTree.lookup?_set_of_ne same] at found

theorem Workspace.update_of_ok {change : FileTree → Location → Except OsError FileTree}
    {w : Workspace} {tree : FileTree} (changed : change w.tree w.here = .ok tree) :
    Workspace.update change w = (.ok (), { w with tree }) := by
  rw [Workspace.update, changed]

theorem Workspace.update_of_error {change : FileTree → Location → Except OsError FileTree}
    {w : Workspace} {cause : OsError} (refused : change w.tree w.here = .error cause) :
    Workspace.update change w = (.error cause, w) := by
  rw [Workspace.update, refused]

/-- The first part of writing a text: the directories above it. -/
def makeParents (path : Path) : StateM Workspace (Except OsError Unit) :=
  match path.parent? with
  | none => pure (.ok ())
  | some parent => makeDirectories parent

theorem writeOutput_eq (path : Path) (text : String) :
    (writeOutput path text : StateM Workspace (Except WriteError Unit)) =
      makeParents path >>= fun made => match made with
        | .error cause => pure (.error ⟨path, cause⟩)
        | .ok () => do
          return (← Storage.writeText path text).mapError fun cause => ⟨path, cause⟩ := by
  unfold writeOutput makeParents
  cases path.parent? <;> rfl

/-- The path that a path has for its parent. -/
def Path.Parent (path above : Path) : Prop :=
  path.parent? = some above

/-- A path above another: its parent, or one above that. -/
def Path.Above : Path → Path → Prop :=
  Relation.TransGen Path.Parent

/-- A program that keeps what is said of a workspace. -/
def Keeps (P : Workspace → Prop) {α : Type} (program : StateM Workspace α) : Prop :=
  ∀ w, P w → P (program w).2

section Keeps

variable {P : Workspace → Prop} {α β : Type}

theorem keeps_pure (a : α) : Keeps P (pure a) :=
  fun _ kept => kept

theorem keeps_bind {program : StateM Workspace α} {next : α → StateM Workspace β}
    (first : Keeps P program) (second : ∀ a, Keeps P (next a)) : Keeps P (program >>= next) :=
  fun w kept => second (program w).1 _ (first w kept)

theorem keeps_isDirectory (path : Path) : Keeps P (Storage.isDirectory path) :=
  fun _ kept => kept

theorem keeps_ensureDirectory {path : Path} (making : Keeps P (Storage.makeDirectory path)) :
    Keeps P (ensureDirectory path) := by
  refine keeps_bind making fun made => ?_
  split
  · exact keeps_pure _
  · refine keeps_bind (keeps_isDirectory path) fun present => ?_
    split
    · exact keeps_pure _
    · exact keeps_pure _

/-- What making a path or one above it a directory keeps, making all that are missing keeps too. -/
theorem keeps_makeDirectories {path : Path}
    (making : ∀ above, Relation.ReflTransGen Path.Parent path above →
      Keeps P (Storage.makeDirectory above)) : Keeps P (makeDirectories path) := by
  induction size : path.size using Nat.strong_induction_on generalizing path with
  | _ n ih =>
    have own := making path .refl
    unfold makeDirectories
    split
    · exact keeps_pure _
    · refine keeps_bind own fun made => ?_
      split
      · exact keeps_pure _
      · split
        · exact keeps_pure _
        · next parent above =>
          have smaller : parent.size < n := size ▸ Path.size_parent?_lt above
          refine keeps_bind (ih _ smaller (fun upper up => making upper (.head above up)) rfl)
            fun made => ?_
          split
          · exact keeps_pure _
          · exact keeps_ensureDirectory own
      · refine keeps_bind (keeps_isDirectory path) fun present => ?_
        split
        · exact keeps_pure _
        · exact keeps_pure _

theorem keeps_makeParents {path : Path}
    (making : ∀ above, path.Above above → Keeps P (Storage.makeDirectory above)) :
    Keeps P (makeParents path) := by
  unfold makeParents
  split
  · exact keeps_pure _
  · next parent above => exact keeps_makeDirectories fun upper up => making upper (.head' above up)

theorem keeps_writeOutput {path : Path} {text : String}
    (making : ∀ above, path.Above above → Keeps P (Storage.makeDirectory above))
    (writing : Keeps P (Storage.writeText path text)) : Keeps P (writeOutput path text) := by
  rw [writeOutput_eq]
  refine keeps_bind (keeps_makeParents making) fun made => ?_
  split
  · exact keeps_pure _
  · exact keeps_bind writing fun written => keeps_pure _

end Keeps

/-- A program that makes directories at most. -/
def Adds {α : Type} (program : StateM Workspace α) : Prop :=
  ∀ w : Workspace, w.Extends (program w).2

theorem adds_makeDirectory (path : Path) : Adds (Storage.makeDirectory path) := by
  intro w
  show w.Extends (Workspace.update _ w).2
  unfold Workspace.update
  split
  · next tree made =>
    obtain ⟨above, name, -, absent, rfl⟩ := FileTree.place_of_makeDirectory made
    exact Workspace.extends_set absent
  · exact .refl w

/-- Directories are only added, also when one of them cannot be made. -/
theorem adds_makeParents (path : Path) : Adds (makeParents path) := by
  intro w
  have making (path : Path) : Keeps w.Extends (Storage.makeDirectory path) :=
    fun w' added => added.trans (adds_makeDirectory path w')
  exact keeps_makeParents (fun above _ => making above) w (.refl w)

/-- What writing a text to a path can come to: directories are added, and then nothing more is done
or the text is put where the path leads by now. -/
inductive Outcome (path : Path) (text : String) (w : Workspace) :
    Except WriteError Unit × Workspace → Prop where
  | refused {w' : Workspace} (cause : OsError) : w.Extends w' →
      Outcome path text w (.error ⟨path, cause⟩, w')
  | written {w' : Workspace} {place : Location} : w.Extends w' → path.admit = .ok () →
      path.pieces ≠ [] →
      w'.tree.follow (FileTree.start w'.here path) path.pieces = .ok place →
      w'.tree.lookup? place ≠ some .directory →
      Outcome path text w (.ok (), { w' with tree := w'.tree.set place (.file text) })

theorem run_bind {α β : Type} {program : StateM Workspace α} {next : α → StateM Workspace β}
    {w w' : Workspace} {a : α} (h : program w = (a, w')) : (program >>= next) w = next a w' := by
  show next (program w).1 (program w).2 = _
  rw [h]

theorem outcome_writeOutput (path : Path) (text : String) (w : Workspace) :
    Outcome path text w ((writeOutput path text : StateM Workspace _) w) := by
  have added := adds_makeParents path w
  rw [writeOutput_eq]
  cases made : makeParents path w with
  | mk result w' =>
    rw [made] at added
    rw [run_bind made]
    cases result with
    | error cause => exact .refused _ added
    | ok =>
      dsimp only
      cases written : w'.tree.writeText w'.here path text with
      | error cause =>
        have run : (Storage.writeText path text : StateM Workspace _) w' = (.error cause, w') :=
          Workspace.update_of_error written
        rw [run_bind run]
        exact .refused _ added
      | ok tree =>
        have run : (Storage.writeText path text : StateM Workspace _) w' =
            (.ok (), { w' with tree }) :=
          Workspace.update_of_ok written
        obtain ⟨above, name, -, admitted, nonempty, followed, noDirectory, rfl⟩ :=
          FileTree.place_of_writeText written
        rw [run_bind run]
        exact .written added admitted nonempty followed noDirectory

/-- An output is refused at its own path, and directories are made at most. -/
theorem extends_of_writeOutput {path : Path} {text : String} {e : WriteError} {w w' : Workspace}
    (refused : (writeOutput path text : StateM Workspace _) w = (.error e, w')) :
    ∃ cause, e = ⟨path, cause⟩ ∧ w.Extends w' := by
  have outcome := outcome_writeOutput path text w
  rw [refused] at outcome
  cases outcome with
  | refused cause added => exact ⟨cause, rfl, added⟩

/-- What a text that was written to a path leaves: the path leads to it, and no file stands
anywhere else that did not, nor has another text. -/
structure Wrote (path : Path) (text : String) (place : Location) (w w' : Workspace) : Prop where
  here : w'.here = w.here
  grows : w.tree.Grows w'.tree
  nonempty : path.pieces ≠ []
  located : w'.tree.locate w'.here path = .ok (place, .file text)
  others : ∀ other text', other ≠ place → (w'.tree.lookup? other = some (.file text') ↔
    w.tree.lookup? other = some (.file text'))

theorem wrote_of_writeOutput {path : Path} {text : String} {w w' : Workspace}
    (written : (writeOutput path text : StateM Workspace _) w = (.ok (), w')) :
    ∃ place, Wrote path text place w w' := by
  have outcome := outcome_writeOutput path text w
  rw [written] at outcome
  cases outcome with
  | @written w'' place added admitted nonempty followed noDirectory =>
    have named := FileTree.ne_nil_of_lookup? noDirectory
    have set := FileTree.grows_set noDirectory text
    refine ⟨place, added.here, added.tree.grows.trans set, nonempty, ?_,
      fun other text' apart => ?_⟩
    · exact FileTree.locate_eq_ok_iff.mpr
        ⟨admitted, set.follow_eq_ok followed, FileTree.lookup?_set_self named w''.tree _⟩
    · rw [FileTree.lookup?_set_of_ne apart.symm]
      exact ⟨added.file other text', added.tree other _⟩

/-- A text that was written to a path is what is read from it next. -/
theorem readText_of_writeOutput {path : Path} {text : String} {w w' : Workspace}
    (written : (writeOutput path text : StateM Workspace _) w = (.ok (), w')) :
    w'.tree.readText w'.here path = .ok (some text) := by
  obtain ⟨place, wrote⟩ := wrote_of_writeOutput written
  exact FileTree.readText_eq_some_iff.mpr ⟨place, wrote.located⟩

theorem load_of_readText {path : Path} {text : String} {w : Workspace}
    (read : w.tree.readText w.here path = .ok (some text)) :
    (load path : StateM Workspace _) w = (loadText path text, w) := by
  have step : (Storage.readText path : StateM Workspace _) w = (.ok (some text), w) :=
    congrArg (·, w) read
  unfold load
  rw [run_bind step]
  rfl

end ToolTree.Files
