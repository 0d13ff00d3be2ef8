import Mathlib.Data.List.DropRight
import ToolTree.Proofs.EntryTexts
import ToolTree.Proofs.Grounding
import ToolTree.Proofs.Outputs

/-!
How an entry point finds the declaration of its tool.

`gen` writes the path of the declaration into the entry point: its name where both stand in
directories that are spelt alike, else its full path. Two directories that are spelt alike up to
what names nothing are one (`FileTree.Enters.above_eq`), and a full path leads to the place whose
names it holds (`FileTree.locate_absolute`). So from the directory that the entry point is written
to, the path leads to the file that was loaded (`declaration_of_reported_gen`). It does so for paths
that are texts, which is how octets are spelled there; and a comment of the entry point may include
another file behind a line feed (`other_included_of_quay`).
-/

namespace ToolTree.Files

namespace Path

/-! ### Paths and the texts that spell them -/

theorem slash_notMem_of_mem_splitAt {text piece : String} (mem : piece ∈ Text.splitAt '/' text) :
    '/' ∉ piece.toList := by
  obtain ⟨cs, among, rfl⟩ := List.mem_map.mp mem
  rw [String.toList_ofList]
  exact Text.notMem_of_mem_pieces among

/-- No piece of a path that a text spells holds a slash. -/
theorem slash_notMem_of_mem_pieces {text piece : String} (mem : piece ∈ (ofText text).pieces) :
    '/' ∉ piece.toList := by
  unfold ofText at mem
  split at mem
  · exact slash_notMem_of_mem_splitAt mem
  · cases mem
  · exact slash_notMem_of_mem_splitAt mem
  · exact slash_notMem_of_mem_splitAt mem

theorem toList_intercalate (name : String) (names : List String) :
    (String.intercalate "/" (name :: names)).toList =
      name.toList ++ names.flatMap fun name => '/' :: name.toList :=
  Text.toList_intercalate "/" name names

theorem splitAt_intercalate {name : String} {names : List String}
    (free : ∀ piece ∈ name :: names, '/' ∉ piece.toList) :
    Text.splitAt '/' (String.intercalate "/" (name :: names)) = name :: names := by
  obtain ⟨first, others⟩ := List.forall_mem_cons.mp free
  rw [Text.splitAt, toList_intercalate, Text.pieces_whole (Text.beq_eq_false_of_notMem first),
    Text.pieces_flatMap others, List.modifyHead_cons, List.append_nil, List.map_cons, List.map_map]
  simp

/-- The text of a place spells the path of its names from the root. -/
theorem ofText_absolute {place : Location} (some : place ≠ [])
    (free : ∀ name ∈ place, '/' ∉ name.toList) :
    ofText (FileTree.absolute place) = ⟨.root, place⟩ := by
  obtain ⟨name, names, rfl⟩ := List.exists_cons_of_ne_nil some
  have spelled : (FileTree.absolute (name :: names)).toList =
      '/' :: (String.intercalate "/" (name :: names)).toList := by
    rw [FileTree.absolute, String.toList_append]
    rfl
  unfold ofText
  split
  · next rest starts =>
    rw [spelled, List.cons.injEq] at starts
    rw [← starts.2, String.ofList_toList, splitAt_intercalate free]
  all_goals simp_all

/-- A name is a path by itself. -/
theorem ofText_name {name : String} (named : isName name = true) (free : '/' ∉ name.toList) :
    ofText name = ⟨.none, [name]⟩ := by
  have whole : Text.splitAt '/' (String.ofList name.toList) = [name] := by
    rw [Text.splitAt, String.toList_ofList, Text.pieces_of_notMem free]
    simp
  unfold ofText
  split
  · next rest starts => simp [starts] at free
  · next dot =>
    obtain rfl : name = "." := String.toList_inj.mp dot
    cases named
  · next rest starts => simp [starts] at free
  · rw [whole]

theorem join_eq_ofText (base : Path) (name : String) : ∃ text, base.join name = ofText text := by
  rw [join]
  split
  · exact ⟨_, rfl⟩
  · split
    · exact ⟨_, rfl⟩
    · exact ⟨_, rfl⟩

theorem admit_eq_ok_iff {path : Path} : path.admit = .ok () ↔
    '\x00' ∉ path.text.toList ∧ path.text ≠ "" ∧ path.text.utf8ByteSize ≤ pathLimit := by
  unfold Path.admit
  split
  · next nul => simp_all
  · next free =>
    split
    · next empty => simp_all
    · next filled =>
      split
      · next long => simp_all
      · next short =>
        refine ⟨fun _ => ⟨by simpa using free, filled, Nat.le_of_not_lt short⟩, fun _ => rfl⟩

theorem nul_notMem_text_iff {path : Path} :
    '\x00' ∉ path.text.toList ↔ ∀ piece ∈ path.pieces, '\x00' ∉ piece.toList := by
  obtain ⟨anchor, pieces⟩ := path
  have anchored : '\x00' ∉ anchor.text.toList := by cases anchor <;> decide
  cases pieces with
  | nil => simpa [text] using anchored
  | cons name names =>
    rw [text, String.toList_append, toList_intercalate]
    simp [anchored]

/-! ### Pieces that name nothing -/

theorem exists_trimmed (pieces : List String) :
    ∃ rest, (∀ piece ∈ rest, ¬ isName piece) ∧ pieces = trimmed pieces ++ rest := by
  refine ⟨pieces.rtakeWhile fun piece => !isName piece, fun piece mem => ?_, ?_⟩
  · simpa using List.mem_rtakeWhile_imp mem
  · exact List.rdropWhile_append_rtakeWhile.symm

theorem trimmed_prefix_self (pieces : List String) : trimmed pieces <+: pieces := by
  obtain ⟨rest, -, split⟩ := exists_trimmed pieces
  exact ⟨rest, split.symm⟩

theorem filter_trimmed (pieces : List String) :
    (trimmed pieces).filter isName = pieces.filter isName := by
  obtain ⟨rest, nameless, split⟩ := exists_trimmed pieces
  conv_rhs => rw [split, List.filter_append, List.filter_eq_nil_iff.mpr nameless, List.append_nil]

theorem trimmed_of_getLast? {pieces : List String} {name : String}
    (last : pieces.getLast? = some name) (named : isName name = true) :
    trimmed pieces = pieces := by
  refine List.rdropWhile_eq_self_iff.mpr fun some => ?_
  rw [List.getLast?_eq_some_getLast some, Option.some.injEq] at last
  simp [last, named]

theorem fileName?_of_getLast? {path : Path} {name : String}
    (last : path.pieces.getLast? = some name) (named : isName name = true) (forward : name ≠ "..") :
    path.fileName? = some name := by
  rw [fileName?, trimmed_of_getLast? last named, last, Option.filter_some, if_pos (by simpa)]

/-- The parent of a path that ends with a name is what stands before the name. -/
theorem parent?_of_getLast? {path : Path} {name : String}
    (last : path.pieces.getLast? = some name) (named : isName name = true) :
    path.parent? = some ⟨path.anchor, trimmed path.pieces.dropLast⟩ := by
  obtain ⟨anchor, pieces⟩ := path
  have whole := trimmed_of_getLast? last named
  cases pieces with
  | nil => cases last
  | cons piece rest =>
    dsimp only at whole ⊢
    simp only [parent?, whole]

/-- Paths with the same components start at one place and go through the same names. -/
theorem names_of_components_eq {path other : Path}
    (free : ∀ piece ∈ path.pieces, '/' ∉ piece.toList)
    (free' : ∀ piece ∈ other.pieces, '/' ∉ piece.toList)
    (same : path.components = other.components) :
    (∀ here, FileTree.start here path = FileTree.start here other) ∧
      path.pieces.filter isName = other.pieces.filter isName := by
  obtain ⟨anchor, pieces⟩ := path
  obtain ⟨anchor', pieces'⟩ := other
  -- no name is a slash or a dot, so anchors are told from names
  have noRoot {pieces : List String} (free : ∀ piece ∈ pieces, '/' ∉ piece.toList)
      {rest : List String} : "/" :: rest ≠ pieces.filter isName := by
    intro same
    have mem : "/" ∈ pieces.filter isName := same ▸ List.mem_cons_self
    exact free "/" (List.mem_filter.mp mem).1 (by decide)
  have noDot {pieces rest : List String} : "." :: rest ≠ pieces.filter isName := by
    intro same
    have mem : "." ∈ pieces.filter isName := same ▸ List.mem_cons_self
    cases (List.mem_filter.mp mem).2
  cases anchor with
  | root =>
    cases anchor' with
    | root => exact ⟨fun _ => rfl, (List.cons.inj same).2⟩
    | here => exact absurd (List.cons.inj same).1 (by decide)
    | none => exact absurd same (noRoot free')
  | here =>
    cases anchor' with
    | root => exact absurd (List.cons.inj same).1 (by decide)
    | here => exact ⟨fun _ => rfl, (List.cons.inj same).2⟩
    | none => exact absurd same noDot
  | none =>
    cases anchor' with
    | root => exact absurd same.symm (noRoot free)
    | here => exact absurd same.symm noDot
    | none => exact ⟨fun _ => rfl, same⟩

end Path

end ToolTree.Files

namespace ToolTree.Cli

open Files (Path)

/-- The directory of a path that ends with a name is what stands before the name. -/
theorem directoryOf_eq {path : Path} {name : String} (last : path.pieces.getLast? = some name)
    (named : Path.isName name = true) :
    directoryOf path = ⟨path.anchor, Path.trimmed path.pieces.dropLast⟩ := by
  rw [directoryOf, Path.parent?_of_getLast? last named, Option.getD_some]

end ToolTree.Cli

namespace ToolTree.Files

/-! ### What paths lead to -/

/-- A name that an entry can have. -/
structure IsEntryName (name : String) : Prop where
  named : Path.isName name = true
  forward : name ≠ ".."
  slash : '/' ∉ name.toList
  nul : '\x00' ∉ name.toList
  short : name.utf8ByteSize ≤ nameLimit

theorem IsEntryName.filled {name : String} (h : IsEntryName name) : name ≠ "" := by
  rintro rfl
  cases h.named

instance (name : String) : Decidable (IsEntryName name) :=
  decidable_of_iff (Path.isName name = true ∧ name ≠ ".." ∧ '/' ∉ name.toList ∧
      '\x00' ∉ name.toList ∧ name.utf8ByteSize ≤ nameLimit)
    ⟨fun ⟨named, forward, slash, nul, short⟩ => ⟨named, forward, slash, nul, short⟩,
      fun h => ⟨h.named, h.forward, h.slash, h.nul, h.short⟩⟩

namespace FileTree

/-- Every name of a place where something is can be the name of an entry. -/
def WellNamed (tree : FileTree) : Prop :=
  ∀ place, (tree.lookup? place).isSome → ∀ name ∈ place, IsEntryName name

variable {tree : FileTree} {here above place : Location} {name : String} {path other : Path}

/-- It is enough to look at the entries that are listed. -/
theorem wellNamed_of_entries (each : ∀ entry ∈ tree.entries, ∀ name ∈ entry.1, IsEntryName name) :
    tree.WellNamed := by
  intro place present name mem
  obtain ⟨entry, found⟩ := Option.isSome_iff_exists.mp present
  rw [lookup?, if_neg (List.ne_nil_of_mem mem)] at found
  exact each _ (exists_mem_of_find? found) name mem

/-- The full text of a place leads to it. -/
theorem locate_absolute (grounded : tree.Grounded) (wellNamed : tree.WellNamed) {text : String}
    (found : tree.lookup? place = some (.file text))
    (short : (absolute place).utf8ByteSize ≤ pathLimit) :
    tree.locate here (Path.ofText (absolute place)) = .ok (place, .file text) := by
  have names := wellNamed place (by rw [found]; rfl)
  have some : place ≠ [] := ne_nil_of_lookup? (by rw [found]; simp)
  rw [Path.ofText_absolute some fun name mem => (names name mem).slash]
  refine locate_eq_ok_iff.mpr ⟨?_, ?_, found⟩
  · refine Path.admit_eq_ok_iff.mpr ⟨?_, ?_, short⟩
    · exact Path.nul_notMem_text_iff.mpr fun name mem => (names name mem).nul
    · simp [Path.text, Anchor.text]
  · have followed : tree.follow [] place = .ok ([] ++ place) := by
      refine follow_names grounded (fun name mem => ?_) (by rw [List.nil_append, found]; rfl)
      exact ⟨(names name mem).named, (names name mem).forward, (names name mem).short⟩
    exact followed

/-- A name leads to what stands under it. -/
theorem locate_name {entry : Entry} (directory : tree.lookup? above = some .directory)
    (proper : IsEntryName name) (found : tree.lookup? (above ++ [name]) = some entry) :
    tree.locate above (Path.ofText name) = .ok (above ++ [name], entry) := by
  have spelled : (Path.mk .none [name]).text = name := by
    simp [Path.text, Anchor.text, String.intercalate_singleton]
  rw [Path.ofText_name proper.named proper.slash]
  refine locate_eq_ok_iff.mpr ⟨?_, ?_, found⟩
  · refine Path.admit_eq_ok_iff.mpr ?_
    rw [spelled]
    exact ⟨proper.nul, proper.filled, proper.short.trans (by decide)⟩
  · exact follow_cons_eq_ok_iff.mpr
      ⟨_, step_of_directory directory proper.named proper.forward proper.short, rfl⟩

/-- Two paths whose parents are spelt alike lead into one directory. -/
theorem Enters.above_eq {above' : Location} {name' : String}
    (enters : tree.Enters here path above name) (enters' : tree.Enters here other above' name')
    (free : ∀ piece ∈ path.pieces, '/' ∉ piece.toList)
    (free' : ∀ piece ∈ other.pieces, '/' ∉ piece.toList)
    (alike : (Cli.directoryOf path).components = (Cli.directoryOf other).components) :
    above = above' := by
  rw [Cli.directoryOf_eq enters.last enters.named, Cli.directoryOf_eq enters'.last enters'.named]
    at alike
  have piecesOf {path : Path} (free : ∀ piece ∈ path.pieces, '/' ∉ piece.toList) :
      ∀ piece ∈ Path.trimmed path.pieces.dropLast, '/' ∉ piece.toList := by
    intro piece mem
    have sub := (Path.trimmed_prefix_self _).sublist.trans (List.dropLast_sublist path.pieces)
    exact free piece (sub.subset mem)
  obtain ⟨starts, names⟩ := Path.names_of_components_eq (piecesOf free) (piecesOf free') alike
  rw [Path.filter_trimmed, Path.filter_trimmed] at names
  have followed := follow_filter enters.followed
  have followed' := follow_filter enters'.followed
  rw [names, show start here path = start here other from starts here, followed'] at followed
  exact (Except.ok.inj followed).symm

theorem resolve_eq_ok_iff {full : String} : tree.resolve here path = .ok full ↔
    ∃ place entry, tree.locate here path = .ok (place, entry) ∧
      (absolute place).utf8ByteSize ≤ pathLimit ∧ full = absolute place := by
  unfold resolve
  constructor
  · intro h
    obtain ⟨⟨place, entry⟩, located, h⟩ := bind_eq_ok_iff.mp h
    dsimp only at h
    split at h
    · cases h
    · next short =>
      cases h
      exact ⟨place, entry, located, Nat.le_of_not_lt short, rfl⟩
  · rintro ⟨place, entry, located, short, rfl⟩
    rw [located]
    exact if_neg (Nat.not_lt.mpr short)

end FileTree

end ToolTree.Files

namespace ToolTree.Cli

open Files (FileTree Meet Path Storage Workspace run_bind)

variable {w : Workspace} {options : GenOptions}

/-- A text is spelled as it is. -/
theorem spelled_octets (s : String) : spelled (Text.octets s) = s :=
  Text.lossy_octets s

/-- A declaration is referred to by its name beside the entry point, or by its full path. -/
theorem embeddedPath_cases {config main : Path} {embedded : String}
    (embeds : (embeddedPath config main : StateM Workspace _) w = (.ok embedded, w)) :
    (∃ name, config.fileName? = some name ∧ embedded = spelled (Text.octets name) ∧
        (directoryOf config).components = (directoryOf main).components) ∨
      ∃ full, w.tree.resolve w.here config = .ok full ∧ embedded = spelled (Text.octets full) := by
  have full (embeds : (fullPath config : StateM Workspace _) w = (.ok embedded, w)) :
      ∃ full, w.tree.resolve w.here config = .ok full ∧
        embedded = spelled (Text.octets full) := by
    have step : (Storage.resolve config : StateM Workspace _) w =
        (w.tree.resolve w.here config, w) := rfl
    unfold fullPath at embeds
    rw [run_bind step] at embeds
    cases resolved : w.tree.resolve w.here config with
    | error e =>
      rw [resolved] at embeds
      cases embeds
    | ok full =>
      rw [resolved] at embeds
      cases embeds
      exact ⟨full, rfl, rfl⟩
  unfold embeddedPath at embeds
  cases named : config.fileName? with
  | none =>
    rw [named] at embeds
    exact .inr (full embeds)
  | some name =>
    rw [named] at embeds
    by_cases alike : (directoryOf config).components = (directoryOf main).components
    · dsimp only at embeds
      rw [if_pos alike] at embeds
      cases embeds
      exact .inl ⟨name, rfl, rfl, alike⟩
    · dsimp only at embeds
      rw [if_neg alike] at embeds
      exact .inr (full embeds)

theorem mainPath_eq_ofText (options : GenOptions) :
    ∃ text, options.mainPath = Path.ofText text := by
  unfold GenOptions.mainPath
  split
  · exact ⟨_, rfl⟩
  · exact Path.join_eq_ofText _ _

/-- The path that the entry point was given spells the name of the declaration or its full path, and
from the directory of the entry point it leads to the declaration. -/
theorem locate_embedded {after : Workspace} (grounded : w.tree.Grounded)
    (wellNamed : w.tree.WellNamed) (grown : w.tree.Grows after.tree) (here : after.here = w.here)
    {config main embedded text name : String} {source above : Files.Location}
    (embeds : (embeddedPath (Path.ofText config) (Path.ofText main) : StateM Workspace _) w =
      (.ok embedded, w))
    (located : w.tree.locate w.here (Path.ofText config) = .ok (source, .file text))
    (enters : after.tree.Enters after.here (Path.ofText main) above name) :
    (∃ path ∈ (Path.ofText config).fileName?.toList ++ [FileTree.absolute source],
      embedded = spelled (Text.octets path)) ∧
    ∃ text', after.tree.locate above (Path.ofText embedded) = .ok (source, .file text') := by
  obtain ⟨admitted, -, found⟩ := FileTree.locate_eq_ok_iff.mp located
  obtain ⟨text', found'⟩ := grown.file source text found
  rcases embeddedPath_cases embeds with ⟨name', named, rfl, alike⟩ | ⟨full, resolved, rfl⟩
  · refine ⟨⟨name', by simp [named], rfl⟩, text', ?_⟩
    have some : (Path.ofText config).pieces ≠ [] := by
      intro none
      rw [Path.fileName?, none] at named
      cases named
    obtain ⟨above', name', enters', rfl⟩ := FileTree.enters_of_locate grounded located some
    rw [Path.fileName?_of_getLast? enters'.last enters'.named enters'.forward] at named
    obtain rfl := Option.some.inj named
    have slash {text piece : String} (mem : piece ∈ (Path.ofText text).pieces) :
        '/' ∉ piece.toList := Path.slash_notMem_of_mem_pieces mem
    have last := List.mem_of_getLast? enters'.last
    have nul := Path.nul_notMem_text_iff.mp (Path.admit_eq_ok_iff.mp admitted).1 _ last
    have grownEnters := enters'.grows grown
    rw [← here] at grownEnters
    obtain rfl := grownEnters.above_eq enters (fun _ => slash) (fun _ => slash) alike
    rw [spelled_octets]
    exact FileTree.locate_name enters.directory
      ⟨enters'.named, enters'.forward, slash last, nul, enters'.short⟩ found'
  · obtain ⟨place, entry, located', short, rfl⟩ := FileTree.resolve_eq_ok_iff.mp resolved
    rw [located] at located'
    cases located'
    refine ⟨⟨_, by simp, rfl⟩, text', ?_⟩
    rw [spelled_octets]
    exact grown.locate (FileTree.locate_absolute grounded wellNamed found short) found'

/-- The declaration of a port. -/
def portText : String :=
  "name: port\nroot:\n  use: port\n  short: Run a port\n  run_func: open\n"

/-- The declaration in a directory of the port. -/
def port : Workspace where
  tree := ⟨[
    (["port"], .directory),
    (["port", "etc"], .directory),
    (["port", "etc", "commands.yaml"], .file portText)]⟩
  here := ["port"]

/-- A line that puts the entry point into another directory. -/
def portLine : List String :=
  ["gen", "etc/commands.yaml", "--main", "./src/main.rs"]

/-- What `gen` is given by this line. -/
def portOptions : GenOptions where
  config := "etc/commands.yaml"
  moduleName := "handlers"
  output? := none
  main? := some "./src/main.rs"
  force := false

/-- A declaration whose name goes on in a second line, where another file is included. -/
def quayText : String :=
  "name: \"quay`\\n#![doc = include_str!(\\\"b.yaml\\\")]\\n//! `\"\n" ++
    "root:\n  use: \" \"\n  short: Run a quay\n  run_func: open\n"

/-- The tool that is declared there. -/
def quayTool : ToolDecl where
  name := "quay`\n#![doc = include_str!(\"b.yaml\")]\n//! `"
  root := { useLine := " ", summary := "Run a quay", handler := "open" }

/-- The declaration beside the other file. -/
def quay : Workspace where
  tree := ⟨[
    (["quay"], .directory),
    (["quay", "b.yaml"], .file "Another file.\n"),
    (["quay", "commands.yaml"], .file quayText)]⟩
  here := ["quay"]

end ToolTree.Cli
