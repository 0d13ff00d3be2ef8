import Mathlib
import ToolTree.Cli.Program
import ToolTree.Proofs.Layouts
import ToolTree.Proofs.Writing

/-!
The first declaration of a tool, read back.

The template is a text of lines (`starterLines`) that differ from tool to tool in two scalars only.
Their layout is checked once for all names, so the tokens are known for every name whose scalars are
read as they stand. They are those of a node (`tokens_starterLines`), and what this node declares is
computed with the name left open. A name with a character that is quoted as its code point between
braces breaks the first entry already. What `init` leaves is then what `validate` reads
(`template_reread`).
-/

namespace ToolTree.Docs

open Yaml Text

/-- A text behind a key, as `scalar` writes it. -/
def written (text : String) : Written :=
  .inline (!isPlainScalar text.toList) text

/-- What the first declaration says of a tool. -/
def summaryOf (name : String) : String :=
  name ++ " command-line tool"

/-- The lines before the first entry. -/
def foreword : List Line := [
  .comment 0 " Command tree configuration.",
  .comment 0 " Generate handlers with: cmdtree gen commands.yaml",
  .comment 0 " Check it with: cmdtree validate commands.yaml",
  .blank]

/-- The lines about the tool and its root. -/
def rootLines (name summary : Written) : List Line := [
  .entry 0 false "name" name,
  .entry 0 false "description" summary,
  .entry 0 false "version" (.plain "0.1.0"),
  .blank,
  .entry 0 false "root" .nothing,
  .entry 2 false "use" name,
  .entry 2 false "short" summary,
  .comment 2 " Root takes flags only; its subcommands go in the top-level commands map",
  .entry 2 false "flags" .nothing,
  .comment 4 " Flag types: string, bool, int, stringSlice",
  .comment 4 " Shorthands are a single character",
  .entry 4 true "name" (.plain "verbose"),
  .entry 6 false "shorthand" (.plain "v"),
  .entry 6 false "type" (.plain "bool"),
  .entry 6 false "usage" (.plain "Enable verbose output"),
  .comment 6 " Persistent flags are inherited by every subcommand",
  .entry 6 false "persistent" (.plain "true"),
  .blank]

/-- The lines about the commands. -/
def commandLines : List Line := [
  .entry 0 false "commands" .nothing,
  .entry 2 false "hello" .nothing,
  .entry 4 false "use" (.plain "hello <name>"),
  .entry 4 false "short" (.plain "Say hello"),
  .entry 4 false "long" (.literal "Print a greeting for the given name."),
  .comment 4 " Args types: none, any, exact (count), min (min), max (max), range (min, max)",
  .entry 4 false "args" .nothing,
  .entry 6 false "type" (.plain "exact"),
  .entry 6 false "count" (.plain "1"),
  .entry 4 false "run_func" (.plain "runHello"),
  .entry 4 false "flags" .nothing,
  .entry 6 true "name" (.plain "greeting"),
  .entry 8 false "shorthand" (.plain "g"),
  .entry 8 false "type" (.plain "string"),
  .entry 8 false "default" (.plain "Hello"),
  .entry 8 false "usage" (.plain "Greeting to use"),
  .blank,
  .entry 2 false "config" .nothing,
  .entry 4 false "use" (.plain "config"),
  .entry 4 false "short" (.plain "Manage configuration"),
  .entry 4 false "commands" .nothing,
  .entry 6 false "show" .nothing,
  .entry 8 false "use" (.plain "show"),
  .entry 8 false "short" (.plain "Show the current configuration"),
  .entry 8 false "aliases" (.listed "get"),
  .entry 8 false "args" .nothing,
  .entry 10 false "type" (.plain "none"),
  .entry 8 false "run_func" (.plain "runConfigShow")]

/-- The lines of the first declaration, for a name and a summary. -/
def starterLines (name summary : Written) : List Line :=
  foreword ++ (rootLines name summary ++ commandLines)

/-- The layout of the root. -/
def rootLayout (name summary : Layout) : Layout := .map [
  ("use", name),
  ("short", summary),
  ("flags", .item [
    ("name", .plain "verbose"),
    ("shorthand", .plain "v"),
    ("type", .plain "bool"),
    ("usage", .plain "Enable verbose output"),
    ("persistent", .plain "true")])]

/-- The layout of the commands. -/
def commandsLayout : Layout := .map [
  ("hello", .map [
    ("use", .plain "hello <name>"),
    ("short", .plain "Say hello"),
    ("long", .literal "Print a greeting for the given name."),
    ("args", .map [("type", .plain "exact"), ("count", .plain "1")]),
    ("run_func", .plain "runHello"),
    ("flags", .item [
      ("name", .plain "greeting"),
      ("shorthand", .plain "g"),
      ("type", .plain "string"),
      ("default", .plain "Hello"),
      ("usage", .plain "Greeting to use")])]),
  ("config", .map [
    ("use", .plain "config"),
    ("short", .plain "Manage configuration"),
    ("commands", .map [("show", .map [
      ("use", .plain "show"),
      ("short", .plain "Show the current configuration"),
      ("aliases", .listed "get"),
      ("args", .map [("type", .plain "none")]),
      ("run_func", .plain "runConfigShow")])])])]

/-- The entries of the first declaration. -/
def starterEntries (name summary : Layout) : List (String × Layout) := [
  ("name", name),
  ("description", summary),
  ("version", .plain "0.1.0"),
  ("root", rootLayout name summary),
  ("commands", commandsLayout)]

/-- The flags that the first declaration gives to the root. -/
def starterFlags : List FlagDecl := [{
  name := "verbose"
  shorthand := "v"
  kind := "bool"
  usage := "Enable verbose output"
  persistent := true }]

/-- The commands of the first declaration, in the order of their keys. -/
def starterCommands : List (String × CommandDecl) := [
  ("config", {
    useLine := "config"
    summary := "Manage configuration"
    commands := [("show", {
      useLine := "show"
      aliases := ["get"]
      summary := "Show the current configuration"
      args := some { kind := "none" }
      handler := "runConfigShow" })] }),
  ("hello", {
    useLine := "hello <name>"
    summary := "Say hello"
    details := "Print a greeting for the given name.\n"
    args := some { kind := "exact", count := 1 }
    handler := "runHello"
    flags := [{
      name := "greeting"
      shorthand := "g"
      kind := "string"
      defaultText := "Hello"
      usage := "Greeting to use" }] })]

/-- The tool that the first declaration declares. -/
def starter (name : String) : ToolDecl where
  name
  description := summaryOf name
  version := "0.1.0"
  root := {
    useLine := name
    summary := summaryOf name
    flags := starterFlags }
  commands := starterCommands

/-! ### The lines of the template -/

theorem texts_written (text : String) (column : Nat) (beginning : String) :
    (written text).texts column beginning = [beginning ++ " " ++ scalar text] := by
  cases plain : isPlainScalar text.toList <;> simp [written, scalar, Written.texts, plain]

theorem texts_starterLines (name summary : String) :
    (starterLines (written name) (written summary)).flatMap Line.texts =
      templateLines (scalar name) (scalar summary) := by
  simp only [starterLines, foreword, rootLines, commandLines, List.cons_append, List.nil_append,
    List.flatMap_cons, List.flatMap_nil, Line.texts, texts_written]
  simp [Written.texts, Line.keyColumn, indentation, templateLines, toString]

theorem toList_template (name : String) :
    (template name).toList =
      (starterLines (written name) (written (summaryOf name))).flatMap Line.chars := by
  rw [← toList_unlines_texts, texts_starterLines]
  rfl

theorem all_of_isPlainScalar {cs : List Char} (plain : isPlainScalar cs = true) :
    ∀ c ∈ cs, (c.isAlphanum || c == '-' || c == '_' || c == '.') = true := by
  cases cs with
  | nil => cases plain
  | cons c rest =>
    simp only [isPlainScalar, Bool.and_eq_true, List.all_eq_true] at plain
    obtain ⟨letter, inside⟩ := plain
    intro d mem
    rcases List.mem_cons.mp mem with rfl | mem
    · simp [Char.isAlphanum, letter]
    · exact inside d mem

theorem isPlain_of_word {c : Char}
    (word : (c.isAlphanum || c == '-' || c == '_' || c == '.') = true) :
    isPlain c = true ∧ isBraceless c = true := by
  simp only [Bool.or_eq_true, beq_iff_eq] at word
  rcases word with ((alphanum | rfl) | rfl) | rfl
  · exact ⟨isPlain_of_isAlphanum alphanum, isBraceless_of_isAlphanum alphanum⟩
  all_goals exact ⟨rfl, rfl⟩

theorem all_isBraceless_of_isPlainScalar {cs : List Char} (plain : isPlainScalar cs = true) :
    cs.all isBraceless = true :=
  List.all_eq_true.mpr fun c mem => (isPlain_of_word (all_of_isPlainScalar plain c mem)).2

theorem isPlainText_of_isPlainScalar {cs : List Char} (plain : isPlainScalar cs = true) :
    isPlainText cs = true := by
  have words := all_of_isPlainScalar plain
  have inside : cs.all (fun c => c == ' ' || isPlain c) = true := by
    refine List.all_eq_true.mpr ?_
    intro c mem
    simp [(isPlain_of_word (words c mem)).1]
  have ends : cs.getLast? ≠ some ' ' := by
    intro last
    cases words ' ' (List.mem_of_getLast? last)
  have begins : cs.head?.any Char.isAlphanum = true := by
    cases cs with
    | nil => cases plain
    | cons c rest =>
      simp only [isPlainScalar, Bool.and_eq_true] at plain
      simp [Char.isAlphanum, plain.1]
  simp [isPlainText, begins, inside, ends]

theorem isSound_written {text : String} (braceless : text.toList.all isBraceless = true) :
    (written text).isSound = true := by
  unfold written
  cases plain : isPlainScalar text.toList with
  | false => exact braceless
  | true => exact isPlainText_of_isPlainScalar plain

theorem isBraceless_summaryOf (name : String) :
    (summaryOf name).toList.all isBraceless = name.toList.all isBraceless := by
  have words : " command-line tool".toList.all isBraceless = true := all_ofList rfl
  rw [summaryOf, String.toList_append, List.all_append, words, Bool.and_true]

theorem written_summaryOf (name : String) :
    written (summaryOf name) = .inline true (summaryOf name) := by
  have space : ' ' ∈ (summaryOf name).toList := by simp [summaryOf]
  have notPlain : isPlainScalar (summaryOf name).toList = false := by
    refine eq_false_of_ne_true ?_
    intro plain
    cases all_of_isPlainScalar plain ' ' space
  simp [written, notPlain]

-- Sealed, a lemma about another kind of line is passed over at once.
seal Line.isSound Written.isSound in
theorem isSound_starterLines {name summary : Written} (nameSound : name.isSound = true)
    (summarySound : summary.isSound = true) :
    ∀ line ∈ starterLines name summary, line.isSound = true := by
  have nothing : Written.nothing.isSound = true := by simp only [Written.isSound]
  have blank : Line.blank.isSound = true := by simp only [Line.isSound]
  simp only [starterLines, foreword, rootLines, commandLines, List.cons_append, List.nil_append,
    List.forall_mem_cons, List.not_mem_nil, false_imp_iff, implies_true, blank, true_and, and_true]
  repeat' apply And.intro
  all_goals first
    | exact Line.isSound_comment _ rfl
    | refine Line.isSound_entry _ _ rfl (by decide) ?_
  all_goals first
    | exact nameSound
    | exact summarySound
    | exact nothing
    | exact Written.isSound_plain rfl
    | exact Written.isSound_listed rfl
    | exact Written.isSound_literal rfl

theorem areLaidOut_starterLines (quoted : Bool) (name summary : String) :
    Line.areLaidOut (starterLines (.inline quoted name) (.inline true summary)) = true := by
  cases quoted <;> rfl

/-! ### What the tokens declare -/

-- The name stays a variable: nothing that reads the entries looks into it.
section Declared

variable (d : Document) (depth left : Nat) (quoted : Bool) (name summary : String)

/-- Besides comments the lines are those of the entries. -/
theorem filter_starterLines :
    (starterLines (.inline quoted name) (.inline true summary)).filter Line.isEntry =
      Layout.entryLines (starterEntries (.inline quoted name) (.inline true summary)) 0 := by
  rfl

theorem tokens_starterLines :
    ((starterLines (.inline quoted name) (.inline true summary)).foldl Outline.read {}).finish =
      (Layout.map (starterEntries (.inline quoted name) (.inline true summary))).tokens := by
  rw [← Outline.foldl_filter_isEntry, filter_starterLines]
  exact Outline.finish_entryLines (List.cons_ne_nil _ _) (by rfl)

theorem commandDecl_rootLayout : Reading.commandDecl d (depth + 3)
    (rootLayout (.inline quoted name) (.inline true summary)).node left =
      some ({ useLine := name, summary, flags := starterFlags }, left) := by
  rfl

theorem commandMap_commandsLayout :
    Reading.commandMap d (depth + 6) commandsLayout.node left = some (starterCommands, left) := by
  rfl

/-- The texts about the tool are read as they stand, its root and its commands by themselves. -/
theorem toolDecl_starterEntries :
    Reading.toolDecl d (Layout.map (starterEntries (.inline quoted name)
        (.inline true summary))).node left =
      (Reading.commandDecl d 127 (rootLayout (.inline quoted name)
        (.inline true summary)).node left).bind fun (root, left) =>
          (Reading.commandMap d 127 commandsLayout.node left).bind fun (commands, left) =>
            some ({ name, description := summary, version := "0.1.0", root, commands }, left) := by
  rfl

theorem toolDecl?_starterEntries :
    Document.toolDecl? ⟨some (Layout.map (starterEntries (.inline quoted name)
      (.inline true (summaryOf name)))).node, []⟩ = some (starter name) := by
  rw [Document.toolDecl?]
  dsimp only [StateT.run]
  rw [toolDecl_starterEntries, commandDecl_rootLayout _ 124, Option.bind_some]
  dsimp only
  rw [commandMap_commandsLayout _ 121]
  rfl

end Declared

/-- What the lines of the first declaration declare, by way of its tokens and its nodes. -/
theorem toolDecl?_starterLines (quoted : Bool) (name : String) :
    (Reader.document ((starterLines (.inline quoted name)
      (.inline true (summaryOf name))).foldl Outline.read {}).finish).bind Document.toolDecl? =
        some (starter name) := by
  rw [tokens_starterLines, Reader.document_tokens, Option.bind_some, toolDecl?_starterEntries]

theorem problems_starter {name : String} (named : name ≠ "") : (starter name).problems = [] := by
  have said : summaryOf name ≠ "" := by simp [summaryOf]
  have flags : flagProblems rootPath starterFlags = [] ∧
      reuseProblems rootPath [] [] starterFlags = [] := by decide +kernel
  have below : siblingProblems .duplicateRootCommand id [] starterCommands = [] := by
    decide +kernel
  simp [starter, ToolDecl.problems, CommandFields.problems, named, said, flags, below]

theorem ofYaml?_eq (text : String) :
    ToolDecl.ofYaml? text =
      ((tokens? text.toList).bind Reader.document).bind Document.toolDecl? := rfl

theorem ofYaml?_template {name : String} (braceless : name.toList.all isBraceless = true) :
    ToolDecl.ofYaml? (template name) = some (starter name) := by
  have summarySound : (written (summaryOf name)).isSound = true :=
    isSound_written ((isBraceless_summaryOf name).trans braceless)
  have sound := isSound_starterLines (isSound_written braceless) summarySound
  have chars := toList_template name
  rw [written_summaryOf] at sound chars
  have fit := Line.fit_of_areLaidOut sound (areLaidOut_starterLines _ name (summaryOf name))
  rw [ofYaml?_eq, chars, tokens?_lines fit, Option.bind_some, written]
  exact toolDecl?_starterLines (!isPlainScalar name.toList) name

/-! ### A name that is quoted with braces -/

theorem fit_foreword (tail : List Char) : Line.Fit tail foreword :=
  ⟨Line.isSound_comment 0 rfl, trivial, Line.isSound_comment 0 rfl, trivial,
    Line.isSound_comment 0 rfl, trivial, rfl, trivial, trivial⟩

theorem exists_of_all_isBraceless_eq_false {cs : List Char} (braces : cs.all isBraceless = false) :
    ∃ good bad more, cs = good ++ bad :: more ∧ good.all isBraceless = true ∧
      isBraceless bad = false := by
  obtain ⟨bad, found⟩ : ∃ bad, cs.find? (fun c => !isBraceless c) = some bad := by
    refine Option.ne_none_iff_exists'.mp ?_
    intro missed
    have all : cs.all isBraceless = true :=
      List.all_eq_true.mpr fun c mem => by simpa using List.find?_eq_none.mp missed c mem
    rw [all] at braces
    cases braces
  obtain ⟨broken, good, more, split, before⟩ := List.find?_eq_some_iff_append.mp found
  refine ⟨good, bad, more, split, ?_, by simpa using broken⟩
  exact List.all_eq_true.mpr fun c mem => by simpa using before c mem

/-- A name with a character that is quoted as its code point gives a text that is no YAML. -/
theorem ofYaml?_template_of_braces {name : String} (braces : name.toList.all isBraceless = false) :
    ToolDecl.ofYaml? (template name) = none := by
  have notPlain : isPlainScalar name.toList = false := by
    refine eq_false_of_ne_true ?_
    intro plain
    rw [all_isBraceless_of_isPlainScalar plain] at braces
    cases braces
  have quoted : written name = .inline true name := by simp [written, notPlain]
  obtain ⟨good, bad, more, split, braceless, broken⟩ := exists_of_all_isBraceless_eq_false braces
  obtain ⟨digits, code⟩ := quoteChar_of_braces broken
  -- the first entry is broken, so it does not matter what stands behind
  obtain ⟨rest, chars⟩ : ∃ rest, (template name).toList =
      foreword.flatMap Line.chars ++ (brokenEntry 0 "name".toList good ++ rest) := by
    have entry : (Line.entry 0 false "name" (written name)).chars =
        brokenEntry 0 "name".toList good ++
          (digits ++ (more.flatMap quoteChar ++ ['"', '\n'])) := by
      simp [Line.chars, quoted, Written.chars, quoteChars, split, code, brokenEntry]
    rw [toList_template, starterLines, List.flatMap_append, rootLines, List.cons_append,
      List.flatMap_cons, entry, List.append_assoc]
    exact ⟨_, rfl⟩
  rw [ofYaml?_eq, chars, tokens?_brokenEntry (fun tail => fit_foreword _) (by decide) (by decide)
    braceless]
  rfl

theorem ofYaml_template {name : String} (named : name ≠ "") :
    ToolDecl.ofYaml (template name) =
      if name.toList.all isBraceless then .ok (starter name) else .error .malformed := by
  cases braceless : name.toList.all isBraceless with
  | true =>
    simp [ToolDecl.ofYaml, ofYaml?_template braceless, ToolDecl.validated, problems_starter named]
  | false =>
    simp [ToolDecl.ofYaml, ofYaml?_template_of_braces braceless]

end ToolTree.Docs

namespace ToolTree.Cli

open Docs (starter template)
open Files (LoadError Path Storage Workspace loadText writeOutput)
open Text (isBraceless)

/-! ### What `init` leaves -/

variable {name : String} {w : Workspace}

/-- When `init` succeeds, it has written the template and done nothing else. -/
theorem writeOutput_of_runInit (done : ((runInit name : StateM Workspace Exit) w).1.code = 0) :
    (writeOutput (Path.ofText configName) (template name) : StateM Workspace _) w =
      (.ok (), ((runInit name : StateM Workspace Exit) w).2) := by
  have looked : (Storage.pathExists (Path.ofText configName) : StateM Workspace Bool) w =
      (w.tree.pathExists w.here (Path.ofText configName), w) := rfl
  rw [runInit, Files.run_bind looked] at done ⊢
  split at done
  · cases done
  · next unseen =>
    rw [if_neg unseen]
    cases wrote : (writeOutput (Path.ofText configName) (template name) : StateM Workspace _) w with
    | mk result w' =>
      rw [Files.run_bind wrote] at done ⊢
      cases result with
      | error e => cases done
      | ok => rfl

/-- The template declares the tool that was asked for, and so `validate` accepts what `init` leaves.
It is no YAML when a character of the name is quoted as its code point between braces. -/
theorem template_reread {name : String} (named : name ≠ "") :
    ToolDecl.ofYaml (template name) =
        (if name.toList.all isBraceless then .ok (starter name) else .error .malformed) ∧
      ∀ w : Workspace, ((runInit name : StateM Workspace Exit) w).1.code = 0 →
        ((runValidate configName : StateM Workspace Exit)
            ((runInit name : StateM Workspace Exit) w).2).1 =
          if name.toList.all isBraceless then { stdout := summary (starter name) }
          else .failure (LoadError.malformed (Path.ofText configName)).message := by
  have reread := Docs.ofYaml_template named
  refine ⟨reread, fun w done => ?_⟩
  have written := Files.readText_of_writeOutput (writeOutput_of_runInit done)
  have loaded := Files.load_of_readText written
  rw [runValidate, Files.run_bind loaded, loadText, reread]
  cases name.toList.all isBraceless <;> rfl

/-- A name that is quoted, in a directory without files. -/
theorem template_reread_quay :
    "quay 7" ≠ "" ∧ ((runInit "quay 7" : StateM Workspace Exit) {}).1.code = 0 ∧
      ToolDecl.ofYaml (template "quay 7") = .ok (starter "quay 7") ∧
      ((runValidate configName : StateM Workspace Exit)
          ((runInit "quay 7" : StateM Workspace Exit) {}).2).1 =
        { stdout := "Validated 'quay 7': 3 command(s), 2 handler(s).\n" } := by
  have named : "quay 7" ≠ "" := by decide
  have done : ((runInit "quay 7" : StateM Workspace Exit) {}).1.code = 0 := by decide +kernel
  have braceless : "quay 7".toList.all isBraceless = true := by decide +kernel
  obtain ⟨reread, validated⟩ := template_reread named
  rw [if_pos braceless] at reread
  refine ⟨named, done, reread, (validated {} done).trans ?_⟩
  rw [if_pos braceless]
  decide +kernel

/-- A name that ends in a mark above its last letter, which is quoted as its code point. -/
theorem template_of_cafe :
    "cafe\u0301" ≠ "" ∧ ToolDecl.ofYaml (template "cafe\u0301") = .error .malformed := by
  have named : "cafe\u0301" ≠ "" := by decide
  have braces : "cafe\u0301".toList.all isBraceless = false := by decide +kernel
  refine ⟨named, (Docs.ofYaml_template named).trans ?_⟩
  rw [braces]
  rfl

end ToolTree.Cli
