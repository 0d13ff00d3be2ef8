import ToolTree.Proofs.Generating
import ToolTree.Proofs.Presentation

/-!
Free text in a module of stubs.

A description of a function, its use line and its summary, stands behind three slashes. A line feed
in it ends the comment, so its lines behind the first stand in the module as they are
(`codeLines_slashes`). `HandlerSpec.spilled` lists those that are no comments. The rest of a module
depends on no free text: two tools that are equal without presentation give the same module, apart
from comments and from what their descriptions spill (`code_of_descriptions`). Where no description
has a line feed nothing is spilled, and all free text stands in comments.
-/

namespace ToolTree

/-! ### Lines of code -/

namespace Text

/-- A line whose first characters that are not blank are two slashes. -/
def isComment (line : String) : Bool :=
  ['/', '/'].isPrefixOf (line.toList.dropWhile isBlank)

/-- The lines of a text that are no comments. -/
def codeLines (s : String) : List String :=
  (lines s).filter fun line => !isComment line

theorem codeLines_unlines (ls : List String) :
    codeLines (unlines ls) = ls.flatMap fun line => codeLines (line ++ "\n") := by
  rw [codeLines, lines_unlines, List.filter_flatMap]
  rfl

/-- Behind slashes the first line of a text is a comment. Its other lines stand as they are. -/
theorem codeLines_slashes (s : String) :
    codeLines ("/// " ++ s ++ "\n") =
      (lines (s ++ "\n")).tail.filter fun line => !isComment line := by
  have whole : ∀ c ∈ "/// ".toList, (c == '\n') = false := by simp
  rw [codeLines, lines_feed, lines_feed, String.toList_append, pieces_whole whole]
  cases more : pieces (· == '\n') s.toList with
  | nil => exact absurd more (pieces_ne_nil _ _)
  | cons piece rest =>
    -- what dropping a carriage return leaves begins with the slashes still
    have begins : ∃ behind, dropReturn ("/// ".toList ++ piece) = ['/', '/', '/'] ++ behind := by
      unfold dropReturn
      split
      · exact ⟨(' ' :: piece).dropLast, by simp⟩
      · exact ⟨' ' :: piece, rfl⟩
    have comment : isComment (String.ofList (dropReturn ("/// ".toList ++ piece))) = true := by
      obtain ⟨behind, same⟩ := begins
      rw [same, isComment, String.toList_ofList]
      rfl
    simp only [List.modifyHead_cons, List.map_cons, Function.comp_apply, List.tail_cons,
      List.filter_cons, comment, Bool.not_true, Bool.false_eq_true, if_false]

end Text

open Text (codeLines)

/-! ### Functions without presentation -/

/-- A site without what is only shown of its command. -/
def Site.bare (site : Site) : Site :=
  { site with command := site.command.bare }

/-- A function without what is only shown of it. -/
def HandlerSpec.bare (spec : HandlerSpec) : HandlerSpec :=
  { spec with
    useLine := UseLine.name spec.useLine
    summary := ""
    flags := spec.flags.map FlagDecl.bare }

/-- Commands that are equal without presentation have equal sites without it. -/
theorem sitesBelow_bare {commands commands' : List (String × CommandDecl)}
    (alike : List.Forall₂ (fun entry entry' : String × CommandDecl =>
      entry.1 = entry'.1 ∧ entry.2.bare = entry'.2.bare) commands commands') (path : String)
    (each : ∀ entry ∈ commands, ∀ (c' : CommandDecl) (path : String), entry.2.bare = c'.bare →
      (entry.2.sites path).map Site.bare = (c'.sites path).map Site.bare) :
    (sitesBelow path commands).map Site.bare = (sitesBelow path commands').map Site.bare := by
  induction alike with
  | nil => rfl
  | @cons entry entry' rest rest' head _ ih =>
    obtain ⟨first, others⟩ := List.forall_mem_cons.mp each
    have name := CommandFields.nameOr_congr (CommandDecl.bare_eq_iff.mp head.2).1 entry.1
    rw [sitesBelow, sitesBelow, List.map_append, List.map_append, ih others, name, head.1,
      first _ _ head.2]

theorem CommandDecl.sites_bare {c c' : CommandDecl} (same : c.bare = c'.bare) (path : String) :
    (c.sites path).map Site.bare = (c'.sites path).map Site.bare := by
  induction c using CommandDecl.induction generalizing c' path with
  | step fields commands ih =>
    obtain ⟨fields', commands'⟩ := c'
    obtain ⟨own, below⟩ := CommandDecl.bare_eq_iff.mp same
    rw [sites, sites, List.map_cons, List.map_cons,
      sitesBelow_bare below path fun entry mem c' path same => ih entry mem same path]
    exact congrArg (Site.mk path · :: _) own

theorem handlerSpecs_bare (seen : List String) (sites : List Site) :
    handlerSpecs seen (sites.map Site.bare) = (handlerSpecs seen sites).map HandlerSpec.bare := by
  induction sites generalizing seen with
  | nil => rfl
  | cons site rest ih =>
    have handler : site.bare.command.handler = site.command.handler := rfl
    rw [List.map_cons, handlerSpecs, handlerSpecs, handler]
    split
    · exact ih seen
    · rw [ih, List.map_cons]
      rfl

/-- Tools that are equal without presentation have functions that are. -/
theorem ToolDecl.handlerSpecs_congr {tool tool' : ToolDecl} (same : tool.bare = tool'.bare) :
    tool.handlerSpecs.map HandlerSpec.bare = tool'.handlerSpecs.map HandlerSpec.bare := by
  obtain ⟨rootName, -, trees⟩ := ToolDecl.of_bare_eq same
  rw [handlerSpecs, handlerSpecs, ← handlerSpecs_bare, ← handlerSpecs_bare, ToolDecl.sites_eq,
    ToolDecl.sites_eq, rootName, CommandDecl.sites_bare trees]

/-! ### Stubs side by side -/

/-- What the description of a function puts into a module besides a comment: its lines behind the
first one, those that are comments apart. -/
def HandlerSpec.spilled (spec : HandlerSpec) : List String :=
  (Text.lines (Source.Stub.describe spec ++ "\n")).tail.filter fun line => !Text.isComment line

/-- Nothing is spilled where neither the use line nor the summary has a line feed. -/
theorem HandlerSpec.spilled_eq_nil {spec : HandlerSpec} (use : '\n' ∉ spec.useLine.toList)
    (summary : '\n' ∉ spec.summary.toList) : spec.spilled = [] := by
  rw [spilled, Text.lines_feed,
    Text.pieces_of_notMem (Source.Stub.feed_notMem_describe use summary)]
  rfl

namespace Source

namespace Stub

/-- A stub without its description. -/
def bare (stub : Stub) : Stub :=
  { stub with summary := "" }

/-- The code of a stub behind its description. -/
def body (stub : Stub) : List String :=
  stub.lines.tail.flatMap fun line => codeLines (line ++ "\n")

theorem body_bare (stub : Stub) : stub.bare.body = stub.body :=
  rfl

variable {spec : HandlerSpec} {stub : Stub}

theorem summary_of_ofSpec (ok : ofSpec spec = .ok stub) : stub.summary = describe spec := by
  simp only [ofSpec, bind_eq_ok_iff, pure_eq_ok_iff] at ok
  obtain ⟨name, -, rule, -, kinds, -, rfl⟩ := ok
  rfl

/-- What does not look at what is only shown of a flag reads the same of both. -/
theorem map_zip_bare {α : Type} {f : String × FlagDecl × FlagKind → α}
    (blind : ∀ target flag kind, f (target, flag.bare, kind) = f (target, flag, kind))
    (targets : List String) (spec : HandlerSpec) (kinds : List FlagKind) :
    (targets.zip (spec.bare.flags.zip kinds)).map f =
      (targets.zip (spec.flags.zip kinds)).map f := by
  rw [HandlerSpec.bare, List.zip_map_left, List.zip_map_right, List.map_map]
  refine List.map_congr_left ?_
  rintro ⟨target, flag, kind⟩ -
  exact blind target flag kind

/-- What is only shown of a function reaches nothing of its stub but the description. -/
theorem ofSpec_bare (spec : HandlerSpec) :
    (ofSpec spec.bare).map bare = (ofSpec spec).map bare := by
  have names : spec.bare.flags.map (fun flag => camelCase flag.name) =
      spec.flags.map fun flag => camelCase flag.name := by
    rw [HandlerSpec.bare, List.map_map]
    rfl
  have kinds : spec.bare.flags.mapM spec.bare.flagKind = spec.flags.mapM spec.flagKind := by
    rw [HandlerSpec.bare, List.mapM_map]
    rfl
  have named : spec.bare.functionName = spec.functionName := rfl
  have ruled : spec.bare.arity = spec.arity := rfl
  unfold ofSpec
  simp only [names, kinds, named, ruled]
  cases spec.functionName with
  | error e => rfl
  | ok name =>
    cases spec.arity with
    | error e => rfl
    | ok rule =>
      cases spec.flags.mapM spec.flagKind with
      | error e => rfl
      | ok kinds =>
        dsimp only [Bind.bind, Except.bind, pure, Except.pure, Except.map]
        rw [map_zip_bare fun _ _ _ => rfl]
        rfl

theorem exists_of_bare_eq {spec' : HandlerSpec} (same : spec.bare = spec'.bare)
    (ok : ofSpec spec = .ok stub) :
    ∃ stub', ofSpec spec' = .ok stub' ∧ stub'.body = stub.body := by
  have mapped : (ofSpec spec').map bare = .ok stub.bare := by
    rw [← ofSpec_bare, ← same, ofSpec_bare, ok]
    rfl
  obtain ⟨stub', ok', bares⟩ := map_eq_ok_iff.mp mapped
  exact ⟨stub', ok', by rw [← body_bare, bares, body_bare]⟩

/-- A function puts an empty line into a module, what its description spills, and its code. -/
theorem codeLines_of_ofSpec (ok : ofSpec spec = .ok stub) :
    ("" :: stub.lines).flatMap (fun line => codeLines (line ++ "\n")) =
      "" :: (spec.spilled ++ stub.body) := by
  have lines : stub.lines = ("/// " ++ describe spec) :: stub.lines.tail := by
    rw [← summary_of_ofSpec ok]
    simp [Stub.lines, toString]
  rw [List.flatMap_cons, lines, List.flatMap_cons, Text.codeLines_slashes]
  rfl

end Stub

/-! ### The module -/

section Module

variable {specs specs' : List HandlerSpec} {stubs stubs' : List Stub}

/-- What opens a module, and then for each function an empty line, what its description spills and
its own code. -/
def moduleCode (opening : List String) (spills bodies : List (List String)) : List String :=
  opening ++ (List.zipWith (fun spilled body => "" :: (spilled ++ body)) spills bodies).flatten

theorem codeLines_stubs (header : List String) (defined : specs.mapM Stub.ofSpec = .ok stubs) :
    codeLines (Text.unlines header ++ String.join (stubs.map fun s => "\n" ++ s.render)) =
      moduleCode (header.flatMap fun line => codeLines (line ++ "\n"))
        (specs.map HandlerSpec.spilled) (stubs.map Stub.body) := by
  rw [unlines_stubs, Text.codeLines_unlines, List.flatMap_append, List.flatMap_assoc, moduleCode]
  congr 1
  have each := mapM_eq_ok_iff.mp defined
  clear defined
  induction each with
  | nil => rfl
  | cons ok _ ih =>
    rw [List.flatMap_cons, List.map_cons, List.map_cons, List.zipWith_cons_cons, List.flatten_cons,
      ih, Stub.codeLines_of_ofSpec ok]

/-- Functions that are equal without presentation have stubs with the same code. -/
theorem bodies_congr (same : specs.map HandlerSpec.bare = specs'.map HandlerSpec.bare)
    (defined : specs.mapM Stub.ofSpec = .ok stubs) :
    ∃ stubs', specs'.mapM Stub.ofSpec = .ok stubs' ∧
      stubs'.map Stub.body = stubs.map Stub.body := by
  simp only [mapM_eq_ok_iff] at defined ⊢
  have alike := forall₂_of_map_eq same
  clear same
  induction defined generalizing specs' with
  | nil =>
    cases alike
    exact ⟨[], .nil, rfl⟩
  | cons ok _ ih =>
    obtain ⟨spec', rest', head, tail, rfl⟩ := List.forall₂_cons_left_iff.mp alike
    obtain ⟨stub', ok', same⟩ := Stub.exists_of_bare_eq head ok
    obtain ⟨stubs', oks', sames⟩ := ih tail
    exact ⟨stub' :: stubs', .cons ok' oks', by rw [List.map_cons, List.map_cons, same, sames]⟩

variable {tool tool' : ToolDecl} {moduleName text : String}

/-- The module of a tool can be written for every tool that is equal to it without presentation.
Both modules have the same code around what the descriptions of their functions spill. -/
theorem handlerModule_congr (same : tool.bare = tool'.bare)
    (written : (handlerModule tool moduleName).result = .ok text) :
    ∃ text', (handlerModule tool' moduleName).result = .ok text' ∧
      ∃ opening bodies, bodies.length = tool.handlerSpecs.length ∧
        codeLines text = moduleCode opening (tool.handlerSpecs.map HandlerSpec.spilled) bodies ∧
        codeLines text' =
          moduleCode opening (tool'.handlerSpecs.map HandlerSpec.spilled) bodies := by
  obtain ⟨specs, collected, stubs, defined, rfl⟩ := handlerModule_eq_ok_iff.mp written
  obtain ⟨named, some, rfl⟩ := moduleSpecs_eq_ok_iff.mp collected
  have bares := ToolDecl.handlerSpecs_congr same
  obtain ⟨stubs', defined', bodies⟩ := bodies_congr bares defined
  have some' : tool'.handlerSpecs ≠ [] := by
    intro none
    rw [none, List.map_nil, List.map_eq_nil_iff] at bares
    exact some bares
  have headers : moduleHeader tool = moduleHeader tool' := by
    rw [moduleHeader, moduleHeader, (ToolDecl.of_bare_eq same).1]
  have length : (stubs.map Stub.body).length = tool.handlerSpecs.length := by
    rw [List.length_map, (mapM_eq_ok_iff.mp defined).length_eq]
  refine ⟨_, handlerModule_eq_ok_iff.mpr ⟨_, moduleSpecs_eq_ok_iff.mpr ⟨named, some', rfl⟩, stubs',
    defined', rfl⟩, _, stubs.map Stub.body, length, codeLines_stubs _ defined, ?_⟩
  rw [codeLines_stubs _ defined', bodies, headers]

/-- What becomes of the code of a module when what is only shown of the tool changes. The module can
be written for the other tool too, and both have the same code around what the descriptions of their
functions spill. No code changes where no use line and no summary of a function has a line feed. -/
theorem code_of_descriptions (same : tool.bare = tool'.bare)
    (written : (handlerModule tool moduleName).result = .ok text) :
    ∃ text', (handlerModule tool' moduleName).result = .ok text' ∧
      (∃ opening bodies, bodies.length = tool.handlerSpecs.length ∧
        codeLines text = moduleCode opening (tool.handlerSpecs.map HandlerSpec.spilled) bodies ∧
        codeLines text' = moduleCode opening (tool'.handlerSpecs.map HandlerSpec.spilled) bodies) ∧
      ((∀ spec ∈ tool.handlerSpecs ++ tool'.handlerSpecs,
          '\n' ∉ spec.useLine.toList ∧ '\n' ∉ spec.summary.toList) →
        codeLines text = codeLines text') := by
  obtain ⟨text', written', around⟩ := handlerModule_congr same written
  refine ⟨text', written', around, fun free => ?_⟩
  obtain ⟨opening, bodies, -, code, code'⟩ := around
  have contained : ∀ spec ∈ tool.handlerSpecs ++ tool'.handlerSpecs, spec.spilled = [] :=
    fun spec mem => HandlerSpec.spilled_eq_nil (free spec mem).1 (free spec mem).2
  obtain ⟨first, second⟩ := List.forall_mem_append.mp contained
  have counts : tool.handlerSpecs.length = tool'.handlerSpecs.length := by
    simpa using congrArg List.length (ToolDecl.handlerSpecs_congr same)
  rw [code, code', List.map_congr_left first, List.map_congr_left second, List.map_const',
    List.map_const', counts]

end Module

end Source

/-- A tool with a gate, whose command says something. -/
def gateTool (hint summary : String) : ToolDecl where
  name := "gate"
  root := { useLine := "gate", summary := "Keep a gate" }
  commands := [("open", { useLine := "open " ++ hint, summary, handler := "open" })]

theorem bare_gateTool (hint hint' summary summary' : String)
    (name : UseLine.name ("open " ++ hint) = UseLine.name ("open " ++ hint')) :
    (gateTool hint summary).bare = (gateTool hint' summary').bare := by
  simp only [gateTool, ToolDecl.bare, CommandDecl.bare, bareBelow, CommandFields.bare, name]

theorem code_of_descriptions_gate :
    (gateTool "<key>" "Open it").bare = (gateTool "[key]" "Open the gate").bare ∧
      ∃ text text',
        (Source.handlerModule (gateTool "<key>" "Open it") "handlers").result = .ok text ∧
        (Source.handlerModule (gateTool "[key]" "Open the gate") "handlers").result = .ok text' ∧
        codeLines text = codeLines text' := by
  have same : (gateTool "<key>" "Open it").bare = (gateTool "[key]" "Open the gate").bare :=
    bare_gateTool _ _ _ _ (by decide)
  have defined : (Source.handlerModule (gateTool "<key>" "Open it") "handlers").result.map
      (fun _ => ()) = .ok () := by rfl
  obtain ⟨text, written, -⟩ := map_eq_ok_iff.mp defined
  obtain ⟨text', written', -, unchanged⟩ := Source.code_of_descriptions same written
  refine ⟨same, text, text', written, written', unchanged ?_⟩
  decide

/-- A second line of a summary is code. -/
theorem code_spilled_of_gate :
    (gateTool "<key>" "Open it").Valid ∧ (gateTool "<key>" "Open it\nuse std::fs;").Valid ∧
      (gateTool "<key>" "Open it").bare = (gateTool "<key>" "Open it\nuse std::fs;").bare ∧
      ∃ text text',
        (Source.handlerModule (gateTool "<key>" "Open it") "handlers").result = .ok text ∧
        (Source.handlerModule (gateTool "<key>" "Open it\nuse std::fs;") "handlers").result =
          .ok text' ∧
        codeLines text ≠ codeLines text' ∧ "use std::fs;" ∈ codeLines text' := by
  have same : (gateTool "<key>" "Open it").bare =
      (gateTool "<key>" "Open it\nuse std::fs;").bare := bare_gateTool _ _ _ _ rfl
  have defined : (Source.handlerModule (gateTool "<key>" "Open it") "handlers").result.map
      (fun _ => ()) = .ok () := by rfl
  have spills : (gateTool "<key>" "Open it").handlerSpecs.map HandlerSpec.spilled = [[]] := by
    decide
  have spills' : (gateTool "<key>" "Open it\nuse std::fs;").handlerSpecs.map HandlerSpec.spilled =
      [["use std::fs;"]] := by
    decide
  obtain ⟨text, written, -⟩ := map_eq_ok_iff.mp defined
  obtain ⟨text', written', opening, bodies, one, code, code'⟩ :=
    Source.handlerModule_congr same written
  rw [spills] at code
  rw [spills'] at code'
  obtain ⟨body, rfl⟩ := List.length_eq_one_iff.mp one
  refine ⟨by decide, by decide, same, text, text', written, written', fun equal => ?_, ?_⟩
  · rw [code, code', Source.moduleCode, Source.moduleCode] at equal
    simp at equal
  · rw [code', Source.moduleCode]
    simp

end ToolTree
