import Mathlib.Data.List.Induction
import ToolTree.Files.FileTree
import ToolTree.Proofs.Sequencing

/-!
Following paths while a tree of files grows.

In a tree that grows, directories stay directories and files stay files. A path that leads
somewhere leads there still, and one that is refused for another reason than that something is
missing is refused still (`Grows.follow`). What a path leads to later, it need not have led to
before, even if that was there: a step back out of a directory that was missing is such a detour.
Without steps back there is none, where every entry stands in a directory (`follow_of_grown`).
-/

namespace ToolTree.Files.FileTree

/-! ### Trees that grow -/

/-- Everything that is there stays there as it is. -/
def Extends (tree tree' : FileTree) : Prop :=
  ∀ place entry, tree.lookup? place = some entry → tree'.lookup? place = some entry

/-- Directories stay directories, and files stay files, perhaps with other texts. -/
structure Grows (tree tree' : FileTree) : Prop where
  directory : ∀ place, tree.lookup? place = some .directory → tree'.lookup? place = some .directory
  file : ∀ place text, tree.lookup? place = some (.file text) →
    ∃ text', tree'.lookup? place = some (.file text')

/-- Every entry stands in a directory. -/
def Grounded (tree : FileTree) : Prop :=
  ∀ place name, (tree.lookup? (place ++ [name])).isSome → tree.lookup? place = some .directory

variable {tree tree' tree'' : FileTree} {here place place' : Location} {path : Path}

theorem Extends.refl (tree : FileTree) : tree.Extends tree :=
  fun _ _ found => found

theorem Extends.trans (h : tree.Extends tree') (h' : tree'.Extends tree'') :
    tree.Extends tree'' :=
  fun place entry found => h' place entry (h place entry found)

theorem Extends.grows (h : tree.Extends tree') : tree.Grows tree' where
  directory place found := h place _ found
  file place text found := ⟨text, h place _ found⟩

theorem Grows.refl (tree : FileTree) : tree.Grows tree :=
  (Extends.refl tree).grows

theorem Grows.trans (h : tree.Grows tree') (h' : tree'.Grows tree'') : tree.Grows tree'' where
  directory place found := h'.directory place (h.directory place found)
  file place text found := by
    obtain ⟨text', found⟩ := h.file place text found
    exact h'.file place text' found

/-- An entry where nothing was. -/
theorem extends_set (absent : tree.lookup? place = none) (entry : Entry) :
    tree.Extends (tree.set place entry) := by
  intro other found present
  have apart : place ≠ other := by
    rintro rfl
    rw [absent] at present
    cases present
  rw [lookup?_set_of_ne apart]
  exact present

theorem ne_nil_of_lookup? (noDirectory : tree.lookup? place ≠ some .directory) : place ≠ [] := by
  rintro rfl
  exact noDirectory (by simp [lookup?])

/-- A file where no directory is. -/
theorem grows_set (noDirectory : tree.lookup? place ≠ some .directory) (text : String) :
    tree.Grows (tree.set place (.file text)) := by
  have named := ne_nil_of_lookup? noDirectory
  refine ⟨fun other found => ?_, fun other text' found => ?_⟩
  · have apart : place ≠ other := by
      rintro rfl
      exact noDirectory found
    rw [lookup?_set_of_ne apart]
    exact found
  · by_cases same : place = other
    · subst same
      exact ⟨text, lookup?_set_self named tree _⟩
    · rw [lookup?_set_of_ne same]
      exact ⟨text', found⟩

theorem exists_mem_of_find? {entries : List (Location × Entry)} {entry : Entry}
    (found : find? place entries = some entry) : (place, entry) ∈ entries := by
  induction entries with
  | nil => cases found
  | cons first rest ih =>
    obtain ⟨location, other⟩ := first
    rw [find?] at found
    split at found
    · next same =>
      cases found
      rw [same]
      exact List.mem_cons_self
    · exact List.mem_cons_of_mem _ (ih found)

/-- It is enough to look at the entries that are listed. -/
theorem grounded_of_entries (each : ∀ entry ∈ tree.entries,
    tree.lookup? entry.1.dropLast = some .directory) : tree.Grounded := by
  intro place name present
  obtain ⟨entry, found⟩ := Option.isSome_iff_exists.mp present
  rw [lookup?, if_neg (by simp)] at found
  have above := each _ (exists_mem_of_find? found)
  rwa [List.dropLast_concat] at above

/-- All directories above an entry are there. -/
theorem Grounded.isSome_of_prefix (grounded : tree.Grounded) (above : place <+: place')
    (present : (tree.lookup? place').isSome) : (tree.lookup? place).isSome := by
  obtain ⟨names, rfl⟩ := above
  induction names using List.reverseRecOn with
  | nil => rwa [List.append_nil] at present
  | append_singleton names name ih =>
    rw [← List.append_assoc] at present
    exact ih (by rw [grounded _ _ present]; rfl)

/-! ### One step -/

theorem enter_eq_ok_iff : tree.enter place = .ok () ↔ tree.lookup? place = some .directory := by
  unfold enter
  split <;> simp_all

theorem enter_eq_noEntry_iff : tree.enter place = .error .noEntry ↔ tree.lookup? place = none := by
  unfold enter
  split <;> simp_all

theorem Grows.enter (h : tree.Grows tree') (place : Location) :
    tree.enter place = tree'.enter place ∨ tree.lookup? place = none := by
  cases found : tree.lookup? place with
  | none => exact .inr rfl
  | some entry =>
    refine .inl ?_
    cases entry with
    | directory => rw [enter_eq_ok_iff.mpr found, enter_eq_ok_iff.mpr (h.directory place found)]
    | file text =>
      obtain ⟨text', found'⟩ := h.file place text found
      simp [FileTree.enter, found, found']

theorem step_of_absent (absent : tree.lookup? place = none) (piece : String) :
    tree.step place piece = .error .noEntry := by
  rw [step, enter_eq_noEntry_iff.mpr absent]
  rfl

/-- A step is the same in a tree that has grown, unless it starts where nothing was. -/
theorem Grows.step (h : tree.Grows tree') (place : Location) (piece : String) :
    tree.step place piece = tree'.step place piece ∨ tree.lookup? place = none := by
  refine (h.enter place).imp_left fun same => ?_
  unfold FileTree.step
  rw [same]

theorem named_eq_ok (name : String) (h : named place name = .ok place') :
    place' = place ++ [name] := by
  unfold named at h
  split at h
  · cases h
  · cases h
    rfl

theorem named_of_short {name : String} (short : name.utf8ByteSize ≤ nameLimit) :
    named place name = .ok (place ++ [name]) :=
  if_neg (Nat.not_lt.mpr short)

/-- A step by a name goes to what the name stands for in a directory. -/
theorem step_eq_named (directory : tree.lookup? place = some .directory) {name : String}
    (named : Path.isName name = true) (forward : name ≠ "..") :
    tree.step place name = FileTree.named place name := by
  rw [step, enter_eq_ok_iff.mpr directory]
  exact (if_neg forward).trans (if_pos named)

theorem prefix_of_step {piece : String} (forward : piece ≠ "..")
    (h : tree.step place piece = .ok place') : place <+: place' := by
  obtain ⟨-, -, h⟩ := bind_eq_ok_iff.mp h
  rw [if_neg forward] at h
  split at h
  · rw [named_eq_ok piece h]
    exact List.prefix_append place [piece]
  · cases h
    exact List.prefix_rfl

/-! ### Whole paths -/

theorem follow_cons (tree : FileTree) (place : Location) (piece : String) (pieces : List String) :
    tree.follow place (piece :: pieces) =
      tree.step place piece >>= fun place => tree.follow place pieces :=
  List.foldlM_cons

theorem follow_append (tree : FileTree) (place : Location) (pieces more : List String) :
    tree.follow place (pieces ++ more) =
      tree.follow place pieces >>= fun place => tree.follow place more :=
  List.foldlM_append

theorem follow_cons_eq_ok_iff {piece : String} {pieces : List String} :
    tree.follow place (piece :: pieces) = .ok place' ↔
      ∃ next, tree.step place piece = .ok next ∧ tree.follow next pieces = .ok place' := by
  rw [follow_cons]
  exact bind_eq_ok_iff

/-- A path leads to the same place in a tree that has grown, unless something was missing on it. -/
theorem Grows.follow (h : tree.Grows tree') (place : Location) (pieces : List String) :
    tree.follow place pieces = tree'.follow place pieces ∨
      tree.follow place pieces = .error .noEntry := by
  induction pieces generalizing place with
  | nil => exact .inl rfl
  | cons piece rest ih =>
    rw [follow_cons, follow_cons]
    rcases h.step place piece with same | absent
    · rw [same]
      cases tree'.step place piece with
      | error e => exact .inl rfl
      | ok next => exact ih next
    · rw [step_of_absent absent]
      exact .inr rfl

theorem Grows.follow_eq_ok (h : tree.Grows tree') {pieces : List String}
    (followed : tree.follow place pieces = .ok place') : tree'.follow place pieces = .ok place' := by
  rcases h.follow place pieces with same | missing
  · exact same.symm.trans followed
  · rw [followed] at missing
    cases missing

theorem prefix_of_follow {pieces : List String} (forward : ".." ∉ pieces)
    (h : tree.follow place pieces = .ok place') : place <+: place' := by
  induction pieces generalizing place with
  | nil =>
    cases h
    exact List.prefix_rfl
  | cons piece rest ih =>
    rw [List.mem_cons, not_or] at forward
    obtain ⟨next, stepped, followed⟩ := follow_cons_eq_ok_iff.mp h
    exact (prefix_of_step (Ne.symm forward.1) stepped).trans (ih forward.2 followed)

/-- Without steps back, what a path leads to in a tree that has grown it led to before, if it was
there: all directories on the way were. -/
theorem follow_of_grown (grounded : tree.Grounded) (grows : tree.Grows tree')
    {pieces : List String} (forward : ".." ∉ pieces)
    (followed : tree'.follow place pieces = .ok place') (present : (tree.lookup? place').isSome) :
    tree.follow place pieces = .ok place' := by
  induction pieces generalizing place with
  | nil => exact followed
  | cons piece rest ih =>
    rw [List.mem_cons, not_or] at forward
    have above := prefix_of_follow (by simpa using forward) followed
    obtain ⟨next, stepped, rest_followed⟩ := follow_cons_eq_ok_iff.mp followed
    have known : tree.step place piece = .ok next := by
      rcases grows.step place piece with same | absent
      · rw [same, stepped]
      · have there := grounded.isSome_of_prefix above present
        rw [absent] at there
        cases there
    rw [follow_cons, known]
    exact ih forward.2 rest_followed

end ToolTree.Files.FileTree
