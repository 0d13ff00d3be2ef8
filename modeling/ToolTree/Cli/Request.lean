import ToolTree.CommandLine.Matching

/-!
What a line asks of the program `cmdtree`.

Each command of the program has a surface: the arguments that are given by name, and the words
that it takes in order. `Surface.read` reads tokens against a surface. Options take the next
token only if it does not start with a dash, and nothing may be given twice.
-/

namespace ToolTree.Cli

open CommandLine (Form)

/-! ### Surfaces -/

/-- What an argument is for. -/
inductive Use where
  | help
  | version
  /-- Present or not. -/
  | switch
  /-- A value, which may be empty or not. -/
  | value (mayBeEmpty : Bool)
  deriving DecidableEq, Repr

/-- An argument: its name, its letter if it has one, and its use. -/
structure Slot where
  name : String
  letter? : Option Char := none
  use : Use
  deriving DecidableEq, Repr

/-- The arguments of a command. -/
structure Surface where
  named : List Slot
  words : List Slot := []
  deriving DecidableEq, Repr

/-- Why reading ends early. -/
inductive Stop where
  | help
  | version
  | refused
  deriving DecidableEq, Repr

/-- What was given: a text for every value, and nothing for a switch. -/
abbrev Given :=
  List (String × String)

/-- How far reading has come. -/
structure Reading where
  given : Given := []
  pending? : Option (Slot × Option String) := none
  trailing : Bool := false
  wordCount : Nat := 0
  deriving DecidableEq, Repr

namespace Reading

/-- Records an argument. -/
def store (r : Reading) (slot : Slot) (text : String) : Except Stop Reading :=
  if (Keyed.find? slot.name r.given).isSome ∨ (slot.use = .value false ∧ text = "") then
    .error .refused
  else .ok { r with given := (slot.name, text) :: r.given }

/-- Records the argument whose value came as a token of its own. -/
def flush (r : Reading) : Except Stop Reading :=
  match r.pending? with
  | none => .ok r
  | some (_, none) => .error .refused
  | some (slot, some text) => { r with pending? := none }.store slot text

/-- Takes an argument that is given by name, perhaps with an attached value. -/
def addNamed (r : Reading) (slot : Slot) (value? : Option String) : Except Stop Reading := do
  let r ← r.flush
  match slot.use, value? with
  | .help, none => .error .help
  | .version, none => .error .version
  | .switch, none => r.store slot ""
  | .value _, some text => r.store slot text
  | .value _, none => return { r with pending? := some (slot, none) }
  | _, some _ => .error .refused

/-- Takes letters after one dash. -/
def addLetters (surface : Surface) (r : Reading) : List Char → Except Stop Reading
  | [] => .ok r
  | c :: rest =>
    match surface.named.find? fun slot => slot.letter? == some c with
    | none => .error .refused
    | some slot =>
      match slot.use, rest with
      | .value _, '=' :: text => r.addNamed slot (some (String.ofList text))
      | .value _, [] => r.addNamed slot none
      | .value _, text => r.addNamed slot (some (String.ofList text))
      | _, rest => do addLetters surface (← r.addNamed slot none) rest

/-- Takes a token that does not start with a dash: the value that is awaited, or a word. -/
def addPlain (surface : Surface) (r : Reading) (token : String) : Except Stop Reading :=
  match r.pending? with
  | some (slot, none) =>
    if r.trailing then .error .refused
    else .ok { r with pending? := some (slot, some token) }
  | _ =>
    match surface.words[r.wordCount]? with
    | none => .error .refused
    | some slot => do
      let r ← r.flush
      return { r with pending? := some (slot, some token), wordCount := r.wordCount + 1 }

/-- Takes a token. -/
def add (surface : Surface) (r : Reading) (token : String) : Except Stop Reading :=
  if r.trailing then r.addPlain surface token
  else
    match Form.of token with
    | .separator => .ok { r with trailing := true }
    | .plain => r.addPlain surface token
    | .letters cs => r.addLetters surface cs
    | .long name value? =>
      match surface.named.find? fun slot => slot.name == name with
      | none => .error .refused
      | some slot => r.addNamed slot value?

end Reading

/-- Reads all tokens of a command. -/
def Surface.read (surface : Surface) (tokens : List String) : Except Stop Given := do
  let r ← tokens.foldlM (fun r token => r.add surface token) ({} : Reading)
  return (← r.flush).given

/-! ### The program -/

/-- What `gen` is given. -/
structure GenOptions where
  config : String
  moduleName : String
  output? : Option String
  main? : Option String
  force : Bool
  deriving DecidableEq, Repr

/-- What the program is asked to do. -/
inductive Request where
  | init (name : String)
  | validate (config : String)
  | gen (options : GenOptions)
  | docs (config : String) (output? : Option String)
  | reference
  deriving DecidableEq, Repr

/-- The commands of the program. -/
inductive Verb where
  | init
  | validate
  | gen
  | docs
  | reference
  deriving DecidableEq, Repr

/-- All commands, with their names. -/
def Verb.all : List (String × Verb) := [
  ("init", .init),
  ("validate", .validate),
  ("gen", .gen),
  ("docs", .docs),
  ("reference", .reference)]

/-- The arguments that every command has. -/
def commonSlots : List Slot := [
  ⟨"verbose", some 'v', .switch⟩,
  ⟨"help", some 'h', .help⟩]

/-- The argument for an output file. -/
def outputSlot : Slot :=
  ⟨"output", some 'o', .value false⟩

/-- The word that names a declaration. -/
def configSlot : Slot :=
  ⟨"config", none, .value false⟩

/-- The arguments of a command. -/
def Verb.surface : Verb → Surface
  | .init => ⟨commonSlots, [⟨"name", none, .value true⟩]⟩
  | .validate => ⟨commonSlots, [configSlot]⟩
  | .gen =>
    ⟨commonSlots ++ [⟨"module", some 'p', .value true⟩, outputSlot,
      ⟨"main", some 'm', .value false⟩, ⟨"force", some 'f', .switch⟩], [configSlot]⟩
  | .docs => ⟨commonSlots ++ [outputSlot], [configSlot]⟩
  | .reference => ⟨commonSlots, []⟩

/-- A text that has to be given. -/
def Given.required (given : Given) (name : String) : Except Stop String :=
  match Keyed.find? name given with
  | some text => .ok text
  | none => .error .refused

/-- The request that a command makes of what it is given. -/
def Verb.request (verb : Verb) (given : Given) : Except Stop Request :=
  let get? := fun name => Keyed.find? name given
  match verb with
  | .init => .ok (.init ((get? "name").getD "my-cli"))
  | .validate => return .validate (← Given.required given "config")
  | .gen => do
    return .gen {
      config := ← Given.required given "config"
      moduleName := (get? "module").getD "handlers"
      output? := get? "output"
      main? := get? "main"
      force := (get? "force").isSome }
  | .docs => return .docs (← Given.required given "config") (get? "output")
  | .reference => .ok .reference

/-- What the command `help` answers to the words after it. -/
def helpStop : List String → Stop
  | [] => .help
  | [word] => if word = "help" ∨ (Keyed.find? word Verb.all).isSome then .help else .refused
  | _ => .refused

/-- The arguments of the program itself. -/
def rootSurface : Surface :=
  ⟨commonSlots ++ [⟨"version", some 'V', .version⟩], []⟩

/-- Reads the tokens before the name of a command, and then those of the command. -/
def readLine (r : Reading) : List String → Except Stop Request
  | [] => .error .refused
  | token :: rest =>
    if r.trailing then .error .refused
    else
      match Keyed.find? token Verb.all with
      | some verb => do verb.request (← verb.surface.read rest)
      | none =>
        if token = "help" then .error (helpStop rest)
        else do readLine (← r.add rootSurface token) rest

/-- What a line asks for, without the program's name. -/
def Request.ofLine (tokens : List String) : Except Stop Request :=
  readLine {} tokens

end ToolTree.Cli
