import ToolTree.Proofs.StubTexts

/-!
The texts of both generators, read as source text.

The lines of an entry point that change with the tool are two comments, the line that names the
module, the line that includes a file and the registrations. So what is registered is what the
lines of the registrations say (`registrationCalls_entryLines`), and what is included is the file
that the entry point is made for (`inclusions_entryLines`), besides what stands in the comments
behind a line feed. The same holds of what a module defines (`definitions_module`).
-/

namespace ToolTree.Source

/-! ### Readings -/

/-- The registrations, each with what it is called with. -/
def registrationCalls (text : String) : List (List Lexeme) :=
  between [.word "registry", .mark '.', .word "register", .mark '('] ')' text

/-- The paths of the files whose texts are included. -/
def inclusions (text : String) : List (List Lexeme) :=
  between [.word "include_str", .mark '!', .mark '('] ')' text

/-! ### The lines of an entry point -/

/-- The line that names the module. -/
def moduleLine (moduleName : String) : String :=
  s!"mod {moduleName};"

/-- The line that includes the text of a file. -/
def includeLine (configFile : String) : String :=
  s!"const COMMANDS_YAML: &str = include_str!({Text.quote configFile});"

/-- The comment of an entry point that names the tool. -/
def toolComment (tool : ToolDecl) : String :=
  s!"//! Entry point for `{tool.rootName}`." ++ "\n"

/-- The comment of an entry point that names the file with the declaration. -/
def fileComment (configFile : String) : String :=
  s!"//! Generated by cmdtree. Commands are defined in `{configFile}`." ++ "\n"

/-- The lines between the file that is included and the registrations. -/
def readingLines : List String :=
  ["", "fn main() \x7b", "    let config = match ToolConfig::from_yaml(COMMANDS_YAML) \x7b"] ++
    matchArms "config" ++ ["", "    let mut registry = HandlerRegistry::new();"]

/-- The lines behind the registrations. -/
def buildingLines : List String :=
  ["", "    let tree = match build(&config, &registry) \x7b"] ++ matchArms "tree" ++
    ["", "    if let Err(err) = tree.execute() \x7b", "        err.exit();", "    \x7d", "\x7d"]

/-- The lines of an entry point that are the same for all tools. -/
def fixedLines : List String :=
  ["//!", "", "use command_tree::\x7bHandlerRegistry, ToolConfig, build\x7d;"] ++ readingLines ++
    buildingLines

theorem entryLines_eq (tool : ToolDecl) (moduleName configFile : String)
    (registrations : List Registration) :
    entryLines tool moduleName configFile registrations =
      [s!"//! Entry point for `{tool.rootName}`.", "//!",
        s!"//! Generated by cmdtree. Commands are defined in `{configFile}`.", "",
        moduleLine moduleName, "",
        "use command_tree::\x7bHandlerRegistry, ToolConfig, build\x7d;", "",
        includeLine configFile] ++
      (readingLines ++ (registrations.map (Registration.line moduleName) ++ buildingLines)) := by
  delta entryLines readingLines buildingLines
  simp only [List.append_assoc, List.cons_append, List.nil_append]
  rfl

theorem cuts_moduleLine {moduleName : String} (h : IsWord moduleName) :
    Cuts (moduleLine moduleName) [.word "mod", .word moduleName, .mark ';'] := by
  have start : Cuts "mod " [.word "mod"] := .of_reads (fun _ => rfl) rfl
  have ends : Cuts ";" [.mark ';'] := .of_reads (fun _ => rfl) rfl
  have spelt : moduleLine moduleName = "mod " ++ (moduleName ++ ";") := String.append_assoc
  rw [spelt]
  exact start.append (ends.word h.filled h.letters rfl)

theorem cuts_includeLine (configFile : String) : Cuts (includeLine configFile)
    [.word "const", .word "COMMANDS_YAML", .mark ':', .mark '&', .word "str", .mark '=',
      .word "include_str", .mark '!', .mark '(', .literal (Text.quote configFile), .mark ')',
      .mark ';'] := by
  have start : Cuts "const COMMANDS_YAML: &str = include_str!(" [.word "const",
      .word "COMMANDS_YAML", .mark ':', .mark '&', .word "str", .mark '=', .word "include_str",
      .mark '!', .mark '('] := .of_reads (fun _ => rfl) rfl
  have ends : Cuts ");" [.mark ')', .mark ';'] := .of_reads (fun _ => rfl) rfl
  have spelt : includeLine configFile =
      "const COMMANDS_YAML: &str = include_str!(" ++ (Text.quote configFile ++ ");") :=
    String.append_assoc
  rw [spelt]
  exact start.append ((cuts_quote configFile).append ends)

/-- A registration is cut into the name in the declaration and the name in the module. -/
theorem Registration.cuts_line {r : Registration} {moduleName : String}
    (h : IsWord r.identifier) (h' : IsWord moduleName) : Cuts (r.line moduleName)
      [.word "registry", .mark '.', .word "register", .mark '(', .literal (Text.quote r.name),
        .mark ',', .word moduleName, .mark ':', .mark ':', .word r.identifier, .mark ')',
        .mark ';'] := by
  have start : Cuts "    registry.register("
      [.word "registry", .mark '.', .word "register", .mark '('] := .of_reads (fun _ => rfl) rfl
  have comma : Cuts ", " [.mark ','] := .of_reads (fun _ => rfl) rfl
  have within : Cuts "::" [.mark ':', .mark ':'] := .of_reads (fun _ => rfl) rfl
  have ends : Cuts ");" [.mark ')', .mark ';'] := .of_reads (fun _ => rfl) rfl
  have spelt : r.line moduleName = "    registry.register(" ++
      (Text.quote r.name ++ (", " ++ (moduleName ++ ("::" ++ (r.identifier ++ ");"))))) := by
    delta Registration.line
    simp only [← String.append_assoc]
    rfl
  have called := within.append (ends.word h.filled h.letters rfl)
  rw [spelt]
  exact start.append ((cuts_quote r.name).append (comma.append
    (called.word h'.filled h'.letters (by simp; rfl))))

section Entry

variable {tool : ToolDecl} {moduleName configFile : String} {registrations : List Registration}

/-- What is read in an entry point stands in its comments and in the lines that change with the
tool, if nothing is read in a line that is the same for all tools. -/
theorem between_entryLines {opening : List Lexeme} {close : Char}
    (fixed : ∀ line ∈ fixedLines, between opening close (line ++ "\n") = [])
    (module : between opening close (moduleLine moduleName ++ "\n") = []) :
    between opening close (Text.unlines (entryLines tool moduleName configFile registrations)) =
      between opening close (toolComment tool) ++ between opening close (fileComment configFile) ++
        between opening close (includeLine configFile ++ "\n") ++
          registrations.flatMap fun r => between opening close (r.line moduleName ++ "\n") := by
  have first := fixed "//!" (by simp [fixedLines])
  have blank := fixed "" (by simp [fixedLines])
  have uses := fixed "use command_tree::\x7bHandlerRegistry, ToolConfig, build\x7d;"
    (by simp [fixedLines])
  have reading :
      (readingLines.flatMap fun line => between opening close (line ++ "\n")) = [] := by
    refine List.flatMap_eq_nil_iff.mpr fun line mem => fixed line ?_
    exact List.mem_append_left _ (List.mem_append_right _ mem)
  have building :
      (buildingLines.flatMap fun line => between opening close (line ++ "\n")) = [] := by
    refine List.flatMap_eq_nil_iff.mpr fun line mem => fixed line ?_
    exact List.mem_append_right _ mem
  rw [between_unlines, entryLines_eq, List.flatMap_append, List.flatMap_append,
    List.flatMap_append, reading, building, List.flatMap_map]
  simp only [List.flatMap_cons, List.flatMap_nil, first, blank, uses, module, List.nil_append,
    List.append_nil, List.append_assoc]
  rfl

/-- What an entry point registers. -/
theorem registrationCalls_entryLines (tool : ToolDecl) (configFile : String)
    (module : IsWord moduleName)
    (names : ∀ r ∈ registrations, IsWord r.identifier) :
    registrationCalls (Text.unlines (entryLines tool moduleName configFile registrations)) =
      registrationCalls (toolComment tool) ++ registrationCalls (fileComment configFile) ++
        registrations.map fun r => [.literal (Text.quote r.name), .mark ',', .word moduleName,
          .mark ':', .mark ':', .word r.identifier] := by
  have each : ∀ line ∈ fixedLines, ('.' ∉ line.toList ∧ '\n' ∉ line.toList) ∨
      line = "    if let Err(err) = tree.execute() \x7b" ∨ line = "        err.exit();" := by
    decide +kernel
  rw [registrationCalls, between_entryLines, (cuts_includeLine configFile).between_eq]
  · rw [List.flatMap_congr fun r mem => (Registration.cuts_line (names r mem) module).between_eq,
      List.map_eq_flatMap]
    simp [occurrences, registrationCalls]
  · intro line mem
    rcases each line mem with ⟨free, whole⟩ | rfl | rfl
    · exact between_of_notMem (by decide) free whole
    · rfl
    · rfl
  · rw [(cuts_moduleLine module).between_eq]
    simp [occurrences]

/-- What an entry point includes. -/
theorem inclusions_entryLines (tool : ToolDecl) (configFile : String) (module : IsWord moduleName)
    (names : ∀ r ∈ registrations, IsWord r.identifier) :
    inclusions (Text.unlines (entryLines tool moduleName configFile registrations)) =
      inclusions (toolComment tool) ++ inclusions (fileComment configFile) ++
        [[.literal (Text.quote configFile)]] := by
  have each : ∀ line ∈ fixedLines, ('!' ∉ line.toList ∧ '\n' ∉ line.toList) ∨
      line = "//!" ∨ line = "            eprintln!(\"error: \x7berr\x7d\");" := by
    decide +kernel
  rw [inclusions, between_entryLines, (cuts_includeLine configFile).between_eq]
  · rw [List.flatMap_congr fun r mem => (Registration.cuts_line (names r mem) module).between_eq]
    simp [occurrences, inclusions]
  · intro line mem
    rcases each line mem with ⟨free, whole⟩ | rfl | rfl
    · exact between_of_notMem (by decide) free whole
    · rfl
    · rfl
  · rw [(cuts_moduleLine module).between_eq]
    simp [occurrences]

end Entry

/-- Where no free text has a line feed the comments of an entry point hold nothing. -/
theorem between_toolComment {tool : ToolDecl} {opening : List Lexeme} {close : Char}
    (whole : '\n' ∉ tool.rootName.toList) : between opening close (toolComment tool) = [] :=
  between_commented (fun _ => rfl) (by decide) (by decide) whole

theorem between_fileComment {configFile : String} {opening : List Lexeme} {close : Char}
    (whole : '\n' ∉ configFile.toList) : between opening close (fileComment configFile) = [] := by
  show between opening close ("//! Generated by cmdtree. Commands are defined in `" ++ configFile ++
    "`." ++ "\n") = []
  exact between_commented (fun _ => rfl) (by simp) (by simp) whole

end ToolTree.Source

namespace ToolTree

/-! ### The text of a module -/

namespace HandlerSpec

/-- The comment before the stub of a function. -/
def summaryComment (spec : HandlerSpec) : String :=
  s!"/// {Source.Stub.describe spec}" ++ "\n"

/-- The comment in the stub of a function that says what is to be done. -/
def todoComment (spec : HandlerSpec) : String :=
  s!"    // TODO: implement `{spec.path}`" ++ "\n"

/-- No free text of a function has a line feed. -/
structure Unbroken (spec : HandlerSpec) : Prop where
  useLine : '\n' ∉ spec.useLine.toList
  summary : '\n' ∉ spec.summary.toList
  path : '\n' ∉ spec.path.toList

end HandlerSpec

namespace Source

/-- The comment of a module that names the tool. -/
def moduleComment (tool : ToolDecl) : String :=
  s!"//! Command handlers for `{tool.rootName}`." ++ "\n"

/-- What the stub of a function adds to the definitions of a module: what its comments hold, around
the name of the function. -/
def definedBy (spec : HandlerSpec) (name : String) : List (List Lexeme) :=
  definitions spec.summaryComment ++ [[.word name]] ++ definitions spec.todoComment

/-- What a function is registered with: its name in the declaration, and that in the module. -/
def registeredAs (moduleName : String) (spec : HandlerSpec) (name : String) : List Lexeme :=
  [.literal ("\"" ++ spec.name ++ "\""), .mark ',', .word moduleName, .mark ':', .mark ':',
    .word name]

theorem between_moduleComment {tool : ToolDecl} {opening : List Lexeme} {close : Char}
    (whole : '\n' ∉ tool.rootName.toList) : between opening close (moduleComment tool) = [] :=
  between_commented (fun _ => rfl) (by decide) (by decide) whole

theorem definedBy_of_unbroken {spec : HandlerSpec} (unbroken : spec.Unbroken) (name : String) :
    definedBy spec name = [[.word name]] := by
  have described := Stub.feed_notMem_describe unbroken.useLine unbroken.summary
  have summary : definitions spec.summaryComment = [] := by
    show between [.word "fn"] '(' ("/// " ++ Stub.describe spec ++ "\n") = []
    exact between_comment (fun _ => rfl) (by decide) (by simp [described])
  have todo : definitions spec.todoComment = [] :=
    between_commented (fun _ => rfl) (by decide) (by decide) unbroken.path
  rw [definedBy, summary, todo]
  rfl

theorem definitions_of_ofSpec {spec : HandlerSpec} {stub : Stub}
    (made : Stub.ofSpec spec = .ok stub) : definitions stub.render = definedBy spec stub.name := by
  rw [(Stub.written_of_ofSpec made).readsAs_definitions.text]
  simp only [Stub.ofSpec, bind_eq_ok_iff, pure_eq_ok_iff] at made
  obtain ⟨name, -, rule, -, kinds, -, rfl⟩ := made
  rfl

/-- What a module defines. -/
theorem definitions_module (tool : ToolDecl) {specs : List HandlerSpec} {stubs : List Stub}
    (made : specs.mapM Stub.ofSpec = .ok stubs) :
    definitions (Text.unlines (moduleHeader tool) ++
        String.join (stubs.map fun s => "\n" ++ s.render)) =
      definitions (moduleComment tool) ++
        (List.zipWith definedBy specs (stubs.map Stub.name)).flatten := by
  have header : definitions (Text.unlines (moduleHeader tool)) =
      definitions (moduleComment tool) := by
    have fixed : (["//!", "//! Generated by cmdtree from the `run_func` entries of the command",
        "//! configuration. Signatures must match the registry; bodies are yours.", "",
        "#![allow(non_snake_case)]", "",
        "use command_tree::\x7bHandlerResult, Invocation\x7d;"].flatMap fun line =>
          between [.word "fn"] '(' (line ++ "\n")) = [] := by
      decide +kernel
    rw [definitions, between_unlines, moduleHeader, List.flatMap_cons, fixed, List.append_nil]
    rfl
  have each (stub : Stub) :
      (("" :: stub.lines).flatMap fun line => between [.word "fn"] '(' (line ++ "\n")) =
        definitions stub.render := by
    rw [List.flatMap_cons, definitions, Stub.render, between_unlines]
    rfl
  rw [unlines_stubs, definitions, between_unlines, List.flatMap_append, ← between_unlines,
    ← definitions, header, List.flatMap_assoc]
  refine congrArg (definitions (moduleComment tool) ++ ·) ?_
  replace made := mapM_eq_ok_iff.mp made
  induction made with
  | nil => rfl
  | cons made _ ih =>
    rw [List.flatMap_cons, List.map_cons, List.zipWith_cons_cons, List.flatten_cons, ih, each,
      definitions_of_ofSpec made]

/-! ### Both texts -/

theorem registrations_eq (moduleName : String) {specs : List HandlerSpec}
    {registrations : List Registration}
    (registered : specs.mapM Registration.ofSpec = .ok registrations) :
    (registrations.map fun r => [.literal (Text.quote r.name), .mark ',', .word moduleName,
      .mark ':', .mark ':', .word r.identifier]) =
      List.zipWith (registeredAs moduleName) specs
        (registrations.map Registration.identifier) := by
  replace registered := mapM_eq_ok_iff.mp registered
  induction registered with
  | nil => rfl
  | cons made _ ih =>
    obtain ⟨named, same⟩ := Registration.ofSpec_eq_ok_iff.mp made
    rw [List.map_cons, List.map_cons, List.zipWith_cons_cons, ih, same,
      (HandlerSpec.functionName_eq_ok_iff.mp named).quote, registeredAs]

theorem definedBy_eq_names {specs : List HandlerSpec} {names : List String}
    (unbroken : ∀ spec ∈ specs, spec.Unbroken) (length : specs.length = names.length) :
    (List.zipWith definedBy specs names).flatten = names.map fun name => [.word name] := by
  induction specs generalizing names with
  | nil =>
    rw [List.length_nil, eq_comm, List.length_eq_zero_iff] at length
    rw [length]
    rfl
  | cons spec rest ih =>
    obtain ⟨name, others, rfl⟩ := List.exists_cons_of_length_eq_add_one length.symm
    obtain ⟨first, unbroken⟩ := List.forall_mem_cons.mp unbroken
    rw [List.zipWith_cons_cons, List.flatten_cons, definedBy_of_unbroken first,
      ih unbroken (Nat.succ.inj length), List.map_cons]
    rfl

section Generated

variable {tool : ToolDecl} {moduleName configFile text main : String}

/-- What stands in both texts, for one list of names. -/
theorem reads_of_generated (written : (handlerModule tool moduleName).result = .ok text)
    (entry : (entryPoint tool moduleName configFile).result = .ok main) :
    ∃ names : List String,
      List.Forall₂ WrittenAs (tool.handlerSpecs.map HandlerSpec.name) names ∧
      definitions text = definitions (moduleComment tool) ++
        (List.zipWith definedBy tool.handlerSpecs names).flatten ∧
      registrationCalls main =
        registrationCalls (toolComment tool) ++ registrationCalls (fileComment configFile) ++
          List.zipWith (registeredAs moduleName) tool.handlerSpecs names := by
  obtain ⟨specs, collected, stubs, defined, rfl⟩ := handlerModule_eq_ok_iff.mp written
  obtain ⟨specs', collected', registrations, registered, rfl⟩ := entryPoint_eq_ok_iff.mp entry
  obtain ⟨⟨module, -⟩, -, rfl⟩ := moduleSpecs_eq_ok_iff.mp collected
  obtain ⟨-, -, rfl⟩ := moduleSpecs_eq_ok_iff.mp collected'
  have registers := registrationCalls_entryLines tool configFile (WrittenAs.plain module).isWord
    fun r mem => (writtenAs_of_mem registered mem).isWord
  rw [registrations_eq moduleName registered, identifiers_eq_names defined registered] at registers
  exact ⟨stubs.map Stub.name, writtenAs_of_stubs defined, definitions_module tool defined,
    registers⟩

/-- What an entry point includes: the file that it is made for, besides what stands in its comments
behind a line feed. -/
theorem inclusions_of_entryPoint
    (entry : (entryPoint tool moduleName configFile).result = .ok main) :
    inclusions main = inclusions (toolComment tool) ++ inclusions (fileComment configFile) ++
      [[.literal (Text.quote configFile)]] := by
  obtain ⟨specs, collected, registrations, registered, rfl⟩ := entryPoint_eq_ok_iff.mp entry
  obtain ⟨⟨module, -⟩, -⟩ := moduleSpecs_eq_ok_iff.mp collected
  exact inclusions_entryLines tool configFile (WrittenAs.plain module).isWord
    fun r mem => (writtenAs_of_mem registered mem).isWord

theorem registrationCalls_comments (whole : '\n' ∉ tool.rootName.toList)
    (whole' : '\n' ∉ configFile.toList) :
    registrationCalls (toolComment tool) ++ registrationCalls (fileComment configFile) = [] := by
  rw [registrationCalls, registrationCalls, between_toolComment whole, between_fileComment whole']
  rfl

end Generated

/-- The generators for a valid tool. Both refuse it for the same reason, if there is one. Otherwise
there is one list of names, those of the collected functions in the source, no two of them alike.
The module defines these, in order, and besides only what stands in its comments behind a line feed.
The entry point registers these, in order, each under its name in the declaration, and besides only
what stands in its own comments behind one. -/
theorem generators_agree (tool : ToolDecl) (valid : tool.problems = [])
    (moduleName configFile : String) :
    (∀ e, (handlerModule tool moduleName).result = .error e ↔ Refuses tool moduleName e) ∧
    (∀ e, (entryPoint tool moduleName configFile).result = .error e ↔
      Refuses tool moduleName e) ∧
    ∀ text main, (handlerModule tool moduleName).result = .ok text →
      (entryPoint tool moduleName configFile).result = .ok main →
      ∃ names : List String,
        List.Forall₂ WrittenAs (tool.handlerSpecs.map HandlerSpec.name) names ∧ names.Nodup ∧
        definitions text = definitions (moduleComment tool) ++
          (List.zipWith definedBy tool.handlerSpecs names).flatten ∧
        registrationCalls main =
          registrationCalls (toolComment tool) ++ registrationCalls (fileComment configFile) ++
            List.zipWith (registeredAs moduleName) tool.handlerSpecs names ∧
        ('\n' ∉ tool.rootName.toList →
          ((∀ spec ∈ tool.handlerSpecs, spec.Unbroken) →
            definitions text = names.map fun name => [.word name]) ∧
          ('\n' ∉ configFile.toList → registrationCalls main =
            List.zipWith (registeredAs moduleName) tool.handlerSpecs names)) := by
  refine ⟨fun e => handlerModule_refused_iff valid, fun e => entryPoint_refused_iff, ?_⟩
  intro text main written entry
  obtain ⟨names, known, defines, registers⟩ := reads_of_generated written entry
  refine ⟨names, known, nodup_of_writtenAs known (nodup_names_handlerSpecs [] tool.sites), defines,
    registers, fun whole => ⟨fun unbroken => ?_, fun whole' => ?_⟩⟩
  · have length := known.length_eq
    rw [List.length_map] at length
    rw [defines, definedBy_eq_names unbroken length, definitions, between_moduleComment whole,
      List.nil_append]
  · rw [registers, registrationCalls_comments whole whole', List.nil_append]

end Source

/-- A tool with two functions, one of which is named by a keyword. -/
def tideTool : ToolDecl where
  name := "tide"
  root := { useLine := "tide", summary := "Show the tide", handler := "move" }
  commands := [
    ("next", { useLine := "next", summary := "Show the next tide", handler := "wait" }),
    ("wait", { useLine := "wait", summary := "Wait for the tide", handler := "wait" })]

open Source (WrittenAs definitions registrationCalls)

theorem generators_agree_tide : tideTool.problems = [] ∧
    ∃ text main, (Source.handlerModule tideTool "handlers").result = .ok text ∧
      (Source.entryPoint tideTool "handlers" "tide.yaml").result = .ok main ∧
      definitions text = [[.word "r#move"], [.word "wait"]] ∧
      registrationCalls main = [
        [.literal "\"move\"", .mark ',', .word "handlers", .mark ':', .mark ':', .word "r#move"],
        [.literal "\"wait\"", .mark ',', .word "handlers", .mark ':', .mark ':',
          .word "wait"]] := by
  have valid : tideTool.problems = [] := by rfl
  have defined : (Source.handlerModule tideTool "handlers").result.map (fun _ => ()) = .ok () := by
    rfl
  have registered :
      (Source.entryPoint tideTool "handlers" "tide.yaml").result.map (fun _ => ()) = .ok () := by
    rfl
  obtain ⟨text, written, -⟩ := map_eq_ok_iff.mp defined
  obtain ⟨main, entry, -⟩ := map_eq_ok_iff.mp registered
  obtain ⟨-, -, agree⟩ := Source.generators_agree tideTool valid "handlers" "tide.yaml"
  obtain ⟨names, written', -, -, -, whole⟩ := agree text main written entry
  have known : List.Forall₂ WrittenAs (tideTool.handlerSpecs.map HandlerSpec.name)
      ["r#move", "wait"] :=
    .cons (Source.functionName?_eq_some_iff.mp (by decide))
      (.cons (Source.functionName?_eq_some_iff.mp (by decide)) .nil)
  obtain rfl := List.right_unique_forall₂' Source.biUnique_writtenAs.2 written' known
  have free : ∀ spec ∈ tideTool.handlerSpecs, '\n' ∉ spec.useLine.toList ∧
      '\n' ∉ spec.summary.toList ∧ '\n' ∉ spec.path.toList := by
    decide
  obtain ⟨defines, registers⟩ := whole (by decide)
  refine ⟨valid, text, main, written, entry, defines fun spec mem => ?_, registers (by decide)⟩
  obtain ⟨useLine, summary, path⟩ := free spec mem
  exact ⟨useLine, summary, path⟩

/-- A tool whose command is described by two lines, the second of which is a function. -/
def hatchTool : ToolDecl where
  name := "hatch"
  root := { useLine := "hatch", summary := "Keep a hatch" }
  commands := [("open",
    { useLine := "open", summary := "Open it\npub fn spare() \x7b\x7d", handler := "open" })]

/-- The module of the hatch defines a function that its entry point does not register. -/
theorem unregistered_of_hatch : hatchTool.problems = [] ∧
    ∃ text main, (Source.handlerModule hatchTool "handlers").result = .ok text ∧
      (Source.entryPoint hatchTool "handlers" "hatch.yaml").result = .ok main ∧
      definitions text = [[.word "spare"], [.word "open"]] ∧
      registrationCalls main = [
        [.literal "\"open\"", .mark ',', .word "handlers", .mark ':', .mark ':',
          .word "open"]] := by
  have defined : (Source.handlerModule hatchTool "handlers").result.map (fun _ => ()) = .ok () := by
    rfl
  have registered :
      (Source.entryPoint hatchTool "handlers" "hatch.yaml").result.map (fun _ => ()) = .ok () := by
    rfl
  obtain ⟨text, written, -⟩ := map_eq_ok_iff.mp defined
  obtain ⟨main, entry, -⟩ := map_eq_ok_iff.mp registered
  obtain ⟨names, written', defines, registers⟩ := Source.reads_of_generated written entry
  have known : List.Forall₂ WrittenAs (hatchTool.handlerSpecs.map HandlerSpec.name) ["open"] :=
    .cons (Source.functionName?_eq_some_iff.mp (by decide)) .nil
  obtain rfl := List.right_unique_forall₂' Source.biUnique_writtenAs.2 written' known
  have spilled : (List.zipWith Source.definedBy hatchTool.handlerSpecs ["open"]).flatten =
      [[.word "spare"], [.word "open"]] := by
    rfl
  refine ⟨by rfl, text, main, written, entry, ?_, ?_⟩
  · rw [defines, spilled, definitions, Source.between_moduleComment (by decide)]
    rfl
  · rw [registers, Source.registrationCalls_comments (by decide) (by decide)]
    rfl

end ToolTree
