import ToolTree.Files.Path
import ToolTree.Keyed

/-!
Trees of files.

A location is the list of names from the root, which are texts here as the pieces of paths are.
Following a path goes through its pieces one by one, and each step needs a directory to start from.
Paths and names have a greatest length, in octets. What is at a location changes only by
`FileTree.set`, whose effect the two lemmas at the end describe.
-/

namespace ToolTree.Files

/-- Why the system refuses to do something with a path. -/
inductive OsError where
  | noEntry
  | exists
  | notDirectory
  | isDirectory
  | nameTooLong
  /-- The text of the path holds the character that ends texts for the system. -/
  | nulInName
  | other (code : Nat)
  deriving DecidableEq, Repr

/-- The text of an error, with its number. -/
def OsError.message : OsError → String
  | .noEntry => "No such file or directory (os error 2)"
  | .exists => "File exists (os error 17)"
  | .notDirectory => "Not a directory (os error 20)"
  | .isDirectory => "Is a directory (os error 21)"
  | .nameTooLong => "File name too long (os error 36)"
  | .nulInName => "file name contained an unexpected NUL byte"
  | .other 13 => "Permission denied (os error 13)"
  | .other code => s!"Unknown error {code} (os error {code})"

/-- The most octets in the text of a path. -/
def pathLimit : Nat :=
  4095

/-- The most octets in one name. -/
def nameLimit : Nat :=
  255

/-- What the system asks of the text of a path before it looks for anything. -/
def Path.admit (path : Path) : Except OsError Unit :=
  if path.text.toList.contains '\x00' then .error .nulInName
  else if path.text = "" then .error .noEntry
  else if pathLimit < path.text.utf8ByteSize then .error .nameTooLong
  else .ok ()

/-- A place in a tree: the names from the root. -/
abbrev Location :=
  List String

/-- What is at a location. -/
inductive Entry where
  | file (text : String)
  | directory
  deriving DecidableEq, Repr

/-- The entries of a tree. The root is a directory and has no entry. -/
structure FileTree where
  entries : List (Location × Entry) := []
  deriving DecidableEq, Repr

namespace FileTree

/-- The first entry at a location. -/
def find? (place : Location) : List (Location × Entry) → Option Entry
  | [] => none
  | (location, entry) :: rest => if location = place then some entry else find? place rest

/-- The entries with one of them replaced, or added at the end. -/
def replace (place : Location) (entry : Entry) :
    List (Location × Entry) → List (Location × Entry)
  | [] => [(place, entry)]
  | (location, old) :: rest =>
    if location = place then (place, entry) :: rest
    else (location, old) :: replace place entry rest

/-- What is at a location. -/
def lookup? (tree : FileTree) (place : Location) : Option Entry :=
  if place = [] then some .directory else find? place tree.entries

/-- The tree with an entry at a location. -/
def set (tree : FileTree) (place : Location) (entry : Entry) : FileTree :=
  ⟨replace place entry tree.entries⟩

/-! ### Following paths -/

/-- Names are looked up in directories only. -/
def enter (tree : FileTree) (place : Location) : Except OsError Unit :=
  match tree.lookup? place with
  | none => .error .noEntry
  | some (.file _) => .error .notDirectory
  | some .directory => .ok ()

/-- The location of a name in a directory. -/
def named (place : Location) (name : String) : Except OsError Location :=
  if nameLimit < name.utf8ByteSize then .error .nameTooLong else .ok (place ++ [name])

/-- One step from a location, which has to be a directory. -/
def step (tree : FileTree) (place : Location) (piece : String) : Except OsError Location := do
  tree.enter place
  if piece = ".." then return place.dropLast
  else if Path.isName piece then named place piece
  else return place

/-- The location that pieces lead to. There may be nothing at the last of them. -/
def follow (tree : FileTree) (place : Location) (pieces : List String) :
    Except OsError Location :=
  pieces.foldlM tree.step place

/-- Where a path starts when it is followed from a location. -/
def start (here : Location) (path : Path) : Location :=
  match path.anchor with
  | .root => []
  | .here => here
  | .none => here

/-- The location that a path leads to, where something has to be. -/
def locate (tree : FileTree) (here : Location) (path : Path) :
    Except OsError (Location × Entry) := do
  path.admit
  let location ← tree.follow (start here path) path.pieces
  match tree.lookup? location with
  | some entry => return (location, entry)
  | none => .error .noEntry

/-- Where something new would stand. -/
inductive Target where
  /-- A directory that is there already, since the path does not end with a name of its own. -/
  | directory
  /-- A name in a directory, and whether a slash follows it. -/
  | entry (above : Location) (name : String) (slash : Bool)
  deriving DecidableEq, Repr

/-- The place that a path gives to something new. All but the last piece has to be there. -/
def target (tree : FileTree) (here : Location) (path : Path) : Except OsError Target := do
  path.admit
  let pieces := (path.pieces.reverse.dropWhile (· == "")).reverse
  match pieces.getLast? with
  | none => return .directory
  | some last =>
    let above ← tree.follow (start here path) pieces.dropLast
    tree.enter above
    if last = "." ∨ last = ".." then return .directory
    else return .entry above last (pieces.length < path.pieces.length)

/-! ### Operations -/

/-- The text of a file. A directory can be opened but has none. -/
def readText (tree : FileTree) (here : Location) (path : Path) :
    Except OsError (Option String) := do
  match ← tree.locate here path with
  | (_, .file text) => return some text
  | (_, .directory) => return none

/-- Whether something is at a path. -/
def pathExists (tree : FileTree) (here : Location) (path : Path) : Bool :=
  (tree.locate here path).isOk

/-- Whether a directory is at a path. -/
def isDirectory (tree : FileTree) (here : Location) (path : Path) : Bool :=
  match tree.locate here path with
  | .ok (_, .directory) => true
  | .ok (_, .file _) => false
  | .error _ => false

/-- Makes a directory where nothing is. -/
def makeDirectory (tree : FileTree) (here : Location) (path : Path) :
    Except OsError FileTree := do
  match ← tree.target here path with
  | .directory => .error .exists
  | .entry above name _ =>
    let location ← named above name
    if (tree.lookup? location).isSome then .error .exists
    else return tree.set location .directory

/-- Writes a file, new or in place of an old one. -/
def writeText (tree : FileTree) (here : Location) (path : Path) (text : String) :
    Except OsError FileTree := do
  match ← tree.target here path with
  | .directory => .error .isDirectory
  | .entry _ _ true => .error .isDirectory
  | .entry above name false =>
    let location ← named above name
    if tree.lookup? location = some .directory then .error .isDirectory
    else return tree.set location (.file text)

/-- The full text of a location. -/
def absolute (place : Location) : String :=
  "/" ++ String.intercalate "/" place

/-- The full text of what is at a path, which has to be short enough for a path. -/
def resolve (tree : FileTree) (here : Location) (path : Path) : Except OsError String := do
  let (place, _) ← tree.locate here path
  if pathLimit < (absolute place).utf8ByteSize then .error .nameTooLong
  else return absolute place

/-- The locations of files. -/
def files (tree : FileTree) : List Location :=
  tree.entries.filterMap fun (location, entry) =>
    match entry with
    | .file _ => some location
    | .directory => none

/-! ### Entries after a change -/

theorem find?_replace_self (place : Location) (entry : Entry) (entries : List (Location × Entry)) :
    find? place (replace place entry entries) = some entry := by
  induction entries with
  | nil => simp [replace, find?]
  | cons e rest ih =>
    obtain ⟨location, old⟩ := e
    simp only [replace]
    split
    · simp [find?]
    · next hne => simp [find?, hne, ih]

theorem find?_replace_of_ne {place other : Location} (h : place ≠ other) (entry : Entry)
    (entries : List (Location × Entry)) :
    find? other (replace place entry entries) = find? other entries := by
  induction entries with
  | nil => simp [replace, find?, h]
  | cons e rest ih =>
    obtain ⟨location, old⟩ := e
    simp only [replace]
    split
    · next heq => subst heq; simp [find?, h]
    · simp [find?, ih]

theorem lookup?_set_self {place : Location} (h : place ≠ []) (tree : FileTree) (entry : Entry) :
    (tree.set place entry).lookup? place = some entry := by
  simp [lookup?, set, h, find?_replace_self]

theorem lookup?_set_of_ne {place other : Location} (h : place ≠ other) (tree : FileTree)
    (entry : Entry) : (tree.set place entry).lookup? other = tree.lookup? other := by
  simp [lookup?, set, find?_replace_of_ne h]

end FileTree

end ToolTree.Files
