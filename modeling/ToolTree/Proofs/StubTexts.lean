import ToolTree.Proofs.Lexemes
import ToolTree.Proofs.LocalNames

/-!
The text of a stub, read as source text.

Three readings list what the lexemes of a text hold: the calls on the context (`contextCalls`), the
words that are taken by their positions (`indexings`), and the functions that are defined
(`definitions`). The code of a stub, which is its text without free texts, holds just what the stub
is worked out as. Its description and the path stand in comments, so the whole text holds no more
than the code does and what stands in these behind a line feed (`Stub.ReadsAs`). The local names are
those that the lines of the code bind, and they are apart (`locals_apart`).
-/

namespace ToolTree.Source

/-! ### Readings -/

/-- The calls on the context, each with the method and what it is called with. -/
def contextCalls (text : String) : List (List Lexeme) :=
  between [.word "ctx", .mark '.'] ')' text

/-- The positions in the list of words at which something is taken. -/
def indexings (text : String) : List (List Lexeme) :=
  between [.word "args", .mark '['] ']' text

/-- The names of the functions that are defined. -/
def definitions (text : String) : List (List Lexeme) :=
  between [.word "fn"] '(' text

/-! ### Names in a text -/

/-- What a text must be to stand as one word in a line. -/
structure IsWord (word : String) : Prop where
  filled : word ≠ ""
  letters : ∀ c ∈ word.toList, isWordChar c = true

theorem isWordChar_of_characters {word : String}
    (characters : ∀ c ∈ word.toList, c.isAlphanum = true ∨ c = '_') :
    ∀ c ∈ word.toList, isWordChar c = true := by
  intro c mem
  rcases characters c mem with letter | line
  · simp [isWordChar, letter]
  · simp [isWordChar, line]

theorem WrittenAs.isWord {word name : String} (written : WrittenAs word name) : IsWord name := by
  have letters := isWordChar_of_characters written.characters
  cases written with
  | plain plain =>
    obtain ⟨first, rest, spelt, -⟩ := plain.head
    exact ⟨fun empty => by simp [empty] at spelt, letters⟩
  | raw =>
    refine ⟨by simp, fun c mem => ?_⟩
    rw [String.toList_append] at mem
    rcases List.mem_append.mp mem with mark | letter
    · have marks : ∀ c ∈ "r#".toList, isWordChar c = true := List.all_eq_true.mp rfl
      exact marks c mark
    · exact letters c letter

/-- No name is a keyword. -/
theorem WrittenAs.notKeyword {word name : String} (written : WrittenAs word name) :
    name ∉ keywords := by
  cases written with
  | plain plain => exact plain.notKeyword
  | raw =>
    have marked : keywords.all (fun keyword => !("r#".toList.isPrefixOf keyword.toList)) := by
      decide +kernel
    intro keyword
    have unmarked := List.all_eq_true.mp marked _ keyword
    simp at unmarked

/-! ### The lines of a stub -/

/-- The line that opens a function. -/
def signatureLine (name : String) : String :=
  s!"pub fn {name}(ctx: &Invocation<'_>, args: &[String]) -> HandlerResult \x7b"

/-- The line that reads a flag. -/
def readLine (read : FlagRead) : String :=
  let call := accessor read.kind
  s!"    let {read.target}: {call.2} = ctx.{call.1}({Text.quote read.flag})?;"

/-- The line that takes a word. -/
def slotLine (slot : String) (i : Nat) : String :=
  s!"    let {slot} = args[{i}].as_str();"

/-- The line that drops a value. -/
def dropLine (name : String) : String :=
  s!"    let _ = {name};"

theorem cuts_signatureLine {name : String} (h : IsWord name) : Cuts (signatureLine name)
    [.word "pub", .word "fn", .word name, .mark '(', .word "ctx", .mark ':', .mark '&',
      .word "Invocation", .mark '<', .mark '\'', .word "_", .mark '>', .mark ',', .word "args",
      .mark ':', .mark '&', .mark '[', .word "String", .mark ']', .mark ')', .mark '-', .mark '>',
      .word "HandlerResult", .mark '\x7b'] := by
  have start : Cuts "pub fn " [.word "pub", .word "fn"] := .of_reads (fun _ => rfl) rfl
  have context : Cuts "(ctx: &Invocation<'_>, " [.mark '(', .word "ctx", .mark ':', .mark '&',
      .word "Invocation", .mark '<', .mark '\'', .word "_", .mark '>', .mark ','] :=
    .of_reads (fun _ => rfl) rfl
  have words : Cuts "args: &[String]) -> " [.word "args", .mark ':', .mark '&', .mark '[',
      .word "String", .mark ']', .mark ')', .mark '-', .mark '>'] := .of_reads (fun _ => rfl) rfl
  have result : Cuts "HandlerResult \x7b" [.word "HandlerResult", .mark '\x7b'] :=
    .of_reads (fun _ => rfl) rfl
  have spelt : signatureLine name =
      "pub fn " ++ (name ++
        ("(ctx: &Invocation<'_>, " ++ ("args: &[String]) -> " ++ "HandlerResult \x7b"))) := by
    simp only [signatureLine, String.append_assoc]
    rfl
  rw [spelt]
  exact start.append ((context.append (words.append result)).word h.filled h.letters rfl)

theorem cuts_readLine {read : FlagRead} (h : IsWord read.target) : Cuts (readLine read)
    ([.word "let", .word read.target, .mark ':'] ++ lexemes (accessor read.kind).2 ++
      [.mark '=', .word "ctx", .mark '.', .word (accessor read.kind).1, .mark '(',
        .literal (Text.quote read.flag), .mark ')', .mark '?', .mark ';']) := by
  obtain ⟨target, flag, kind⟩ := read
  have start : Cuts "    let " [.word "let"] := .of_reads (fun _ => rfl) rfl
  have ends : Cuts ")?;" [.mark ')', .mark '?', .mark ';'] := .of_reads (fun _ => rfl) rfl
  have called : Cuts (": " ++ (accessor kind).2 ++ " = ctx." ++ (accessor kind).1 ++ "(")
      ([.mark ':'] ++ lexemes (accessor kind).2 ++
        [.mark '=', .word "ctx", .mark '.', .word (accessor kind).1, .mark '(']) := by
    cases kind <;> exact .of_reads (fun _ => rfl) rfl
  have spelt : readLine ⟨target, flag, kind⟩ = "    let " ++ (target ++
      ((": " ++ (accessor kind).2 ++ " = ctx." ++ (accessor kind).1 ++ "(") ++
        (Text.quote flag ++ ")?;"))) := by
    delta readLine
    simp only [← String.append_assoc]
    rfl
  have whole := start.append
    ((called.append ((cuts_quote flag).append ends)).word h.filled h.letters (by simp; rfl))
  rw [spelt]
  simpa only [List.append_assoc, List.cons_append, List.nil_append] using whole

theorem cuts_slotLine {slot : String} (h : IsWord slot) (i : Nat) : Cuts (slotLine slot i)
    [.word "let", .word slot, .mark '=', .word "args", .mark '[', .word (toString i), .mark ']',
      .mark '.', .word "as_str", .mark '(', .mark ')', .mark ';'] := by
  have start : Cuts "    let " [.word "let"] := .of_reads (fun _ => rfl) rfl
  have taken : Cuts " = args[" [.mark '=', .word "args", .mark '['] := .of_reads (fun _ => rfl) rfl
  have ends : Cuts "].as_str();"
      [.mark ']', .mark '.', .word "as_str", .mark '(', .mark ')', .mark ';'] :=
    .of_reads (fun _ => rfl) rfl
  have digits : ∀ c ∈ (toString i).toList, isWordChar c = true := by
    intro c mem
    rw [Nat.toString_eq_repr, Nat.toList_repr] at mem
    have digit := Nat.isDigit_of_mem_toDigits (by decide) (by decide) mem
    simp [isWordChar, Char.isAlphanum, digit]
  have filled : toString i ≠ "" := by
    rw [Nat.toString_eq_repr]
    exact Nat.repr_ne_empty
  have spelt : slotLine slot i =
      "    let " ++ (slot ++ (" = args[" ++ (toString i ++ "].as_str();"))) := by
    simp only [slotLine, ← String.append_assoc]
    rfl
  rw [spelt]
  exact start.append ((taken.append (ends.word filled digits rfl)).word h.filled h.letters
    (by simp; rfl))

theorem cuts_dropLine {name : String} (h : IsWord name) : Cuts (dropLine name)
    [.word "let", .word "_", .mark '=', .word name, .mark ';'] := by
  have start : Cuts "    let _ = " [.word "let", .word "_", .mark '='] :=
    .of_reads (fun _ => rfl) rfl
  have ends : Cuts ";" [.mark ';'] := .of_reads (fun _ => rfl) rfl
  have spelt : dropLine name = "    let _ = " ++ (name ++ ";") := by
    simp only [dropLine, ← String.append_assoc]
    rfl
  rw [spelt]
  exact start.append (ends.word h.filled h.letters rfl)

/-! ### The text of a stub -/

namespace Stub

/-- The comment before a stub, with its description. -/
def summaryComment (stub : Stub) : String :=
  s!"/// {stub.summary}" ++ "\n"

/-- The comment that says what is to be done, with the path. -/
def todoComment (stub : Stub) : String :=
  s!"    // TODO: implement `{stub.path}`" ++ "\n"

/-- The code of a stub: its text without free texts. -/
def code (stub : Stub) : String :=
  { stub with summary := "", path := "" }.render

/-- What a reading finds in a stub. The code holds what is its own. The comments of the whole text
hold what stands in them behind a line feed. -/
structure ReadsAs (stub : Stub) (read : String → List (List Lexeme)) (own : List (List Lexeme)) :
    Prop where
  code : read stub.code = own
  text : read stub.render = read stub.summaryComment ++ own ++ read stub.todoComment
  summary : '\n' ∉ stub.summary.toList → read stub.summaryComment = []
  path : '\n' ∉ stub.path.toList → read stub.todoComment = []

namespace ReadsAs

variable {stub : Stub} {read : String → List (List Lexeme)} {own : List (List Lexeme)}

theorem of_code (h : stub.ReadsAs read own) : stub.ReadsAs read (read stub.code) where
  code := rfl
  text := h.code ▸ h.text
  summary := h.summary
  path := h.path

/-- Where no free text has a line feed, the whole text holds what the code does. -/
theorem render_eq (h : stub.ReadsAs read own) (summary : '\n' ∉ stub.summary.toList)
    (path : '\n' ∉ stub.path.toList) : read stub.render = own := by
  rw [h.text, h.summary summary, h.path path, List.nil_append, List.append_nil]

end ReadsAs

/-- The lines between the two comments with free texts. -/
def front (stub : Stub) : List String :=
  [signatureLine stub.name] ++ stub.reads.map readLine ++
    (if stub.reads.isEmpty then [] else [""]) ++ [s!"    // {arityComment stub.arity}"] ++
    ((slots stub.arity).zipIdx.map fun (slot, i) => slotLine slot i) ++ [""]

/-- The lines behind both. -/
def back (stub : Stub) : List String :=
  (if stub.reads.isEmpty then [dropLine "ctx"] else []) ++
    (if stub.arity.fixedSlots = 0 then [dropLine "args"] else []) ++ stub.locals.map dropLine ++
    ["    Ok(())", "\x7d"]

theorem lines_eq (stub : Stub) : stub.lines = s!"/// {stub.summary}" :: (stub.front ++
    s!"    // TODO: implement `{stub.path}`" :: stub.back) := by
  have drops : [dropLine "ctx", dropLine "args"] = ["    let _ = ctx;", "    let _ = args;"] := by
    decide
  simp only [List.cons.injEq, and_true] at drops
  unfold lines front back
  rw [drops.1, drops.2]
  simp only [List.append_assoc, List.cons_append, List.nil_append]
  rfl

section Between

variable {stub : Stub} {opening : List Lexeme} {close : Char} {own : List (List Lexeme)}

theorem between_summaryComment (whole : '\n' ∉ stub.summary.toList) :
    between opening close stub.summaryComment = [] := by
  show between opening close ("/// " ++ stub.summary ++ "\n") = []
  exact between_comment (fun _ => rfl) (by decide) (by simp [whole])

theorem between_todoComment (whole : '\n' ∉ stub.path.toList) :
    between opening close stub.todoComment = [] := by
  show between opening close ("    // TODO: implement `" ++ stub.path ++ "`" ++ "\n") = []
  exact between_commented (fun _ => rfl) (by decide) (by decide) whole

/-- It is enough to read the lines around the comment that says what is to be done. -/
theorem readsAs_between
    (front : (stub.front.flatMap fun line => between opening close (line ++ "\n")) = own)
    (back : ∀ line ∈ stub.back, between opening close (line ++ "\n") = []) :
    stub.ReadsAs (between opening close) own := by
  have text (summary path : String) :
      between opening close { stub with summary, path }.render =
        between opening close { stub with summary, path }.summaryComment ++ own ++
          between opening close { stub with summary, path }.todoComment := by
    have behind : (stub.back.flatMap fun line => between opening close (line ++ "\n")) = [] :=
      List.flatMap_eq_nil_iff.mpr back
    have same : { stub with summary, path }.front = stub.front := rfl
    have same' : { stub with summary, path }.back = stub.back := rfl
    rw [render, between_unlines, lines_eq, List.flatMap_cons, List.flatMap_append,
      List.flatMap_cons, same, same', front, behind, List.append_nil, List.append_assoc]
    rfl
  have silent := text "" ""
  rw [between_summaryComment (by simp), between_todoComment (by simp)] at silent
  rw [List.nil_append, List.append_nil] at silent
  exact ⟨silent, text stub.summary stub.path, between_summaryComment, between_todoComment⟩

theorem arityComment_whole (rule : Arity) :
    '\n' ∉ (arityComment rule).toList ∧ (arityComment rule).toList.getLast? ≠ some '\r' := by
  have digits (n : Nat) : '\n' ∉ (toString n).toList := by
    intro mem
    rw [Nat.toString_eq_repr, Nat.toList_repr] at mem
    cases Nat.isDigit_of_mem_toDigits (by decide) (by decide) mem
  have texts : ∀ text ∈ ["accepts no arguments", "accepts any number of arguments",
      "accepts exactly ", "accepts at least ", "accepts at most ", "accepts ", " to "],
      '\n' ∉ text.toList ∧ text.toList.getLast? ≠ some '\r' := by
    decide +kernel
  simp only [List.forall_mem_cons, List.not_mem_nil, false_implies, implies_true, and_true]
    at texts
  obtain ⟨none, any, exactly, least, most, accepts, upTo⟩ := texts
  have joined {a b : String} (h : '\n' ∉ a.toList) (h' : '\n' ∉ b.toList) :
      '\n' ∉ (a ++ b).toList := by
    rw [String.toList_append, List.mem_append, not_or]
    exact ⟨h, h'⟩
  have closed {text : String} (h : '\n' ∉ text.toList) :
      '\n' ∉ (text ++ " argument(s)").toList ∧
        (text ++ " argument(s)").toList.getLast? ≠ some '\r' := by
    refine ⟨joined h (by decide), ?_⟩
    rw [String.toList_append, List.getLast?_append_of_ne_nil _ (by simp)]
    decide
  cases rule with
  | none => exact none
  | any => exact any
  | exactly n => exact closed (joined exactly.1 (digits n))
  | atLeast n => exact closed (joined least.1 (digits n))
  | atMost n => exact closed (joined most.1 (digits n))
  | between low high =>
    exact closed (joined (joined (joined accepts.1 (digits low)) upTo.1) (digits high))

theorem between_arityComment (rule : Arity) :
    between opening close (s!"    // {arityComment rule}" ++ "\n") = [] := by
  have whole := (arityComment_whole rule).1
  show between opening close ("    // " ++ arityComment rule ++ "\n") = []
  exact between_comment (fun _ => rfl) (by decide) (by simp [whole])

end Between

/-! ### What is read -/

/-- The name of a function and those that it binds can be written. -/
structure Written (stub : Stub) : Prop where
  name : ∃ word, WrittenAs word stub.name
  locals : ∀ name ∈ stub.locals, ∃ word, WrittenAs word name

theorem written_of_ofSpec {spec : HandlerSpec} {stub : Stub} (made : ofSpec spec = .ok stub) :
    stub.Written where
  name := ⟨spec.name, HandlerSpec.functionName_eq_ok_iff.mp (name_of_ofSpec made)⟩
  locals name mem := ((locals_of_ofSpec made).2 name mem).2

namespace Written

variable {stub : Stub} (written : stub.Written)

include written

theorem target {read : FlagRead} (mem : read ∈ stub.reads) :
    ∃ word, WrittenAs word read.target :=
  written.locals _ (List.mem_append_left _ (List.mem_map_of_mem mem))

theorem slot {slot : String} (mem : slot ∈ slots stub.arity) : ∃ word, WrittenAs word slot :=
  written.locals _ (List.mem_append_right _ mem)

/-- A line behind the comments drops a value under a name, or ends the function. -/
theorem back {line : String} (mem : line ∈ stub.back) :
    (∃ word name, WrittenAs word name ∧ line = dropLine name) ∨
      line = "    Ok(())" ∨ line = "\x7d" := by
  have parameter : ∀ name ∈ parameters, WrittenAs name name := by
    simp only [parameters, List.forall_mem_cons, ← functionName?_eq_some_iff]
    exact ⟨by decide, by decide, by simp⟩
  simp only [Stub.back, List.mem_append, List.mem_ite_nil_right, List.mem_map, List.mem_cons,
    List.not_mem_nil, or_false] at mem
  rcases mem with ((⟨-, rfl⟩ | ⟨-, rfl⟩) | ⟨name, bound, rfl⟩) | rfl | rfl
  · exact .inl ⟨_, _, parameter "ctx" (by decide), rfl⟩
  · exact .inl ⟨_, _, parameter "args" (by decide), rfl⟩
  · obtain ⟨word, written⟩ := written.locals name bound
    exact .inl ⟨word, name, written, rfl⟩
  · exact .inr (.inl rfl)
  · exact .inr (.inr rfl)

/-- What is read in a stub is what is read in its signature, then in each line that reads a flag,
then in each that takes a word, if nothing is read in a line that drops a value. -/
theorem readsAs (opening : List Lexeme) (close : Char) (signed : List (List Lexeme))
    (ofRead : FlagRead → List (List Lexeme)) (ofSlot : Nat → List (List Lexeme))
    (signature : ∀ {word}, WrittenAs word stub.name →
      between opening close (signatureLine stub.name ++ "\n") = signed)
    (reads : ∀ {word read}, WrittenAs word read.target →
      between opening close (readLine read ++ "\n") = ofRead read)
    (taken : ∀ {word slot} i, WrittenAs word slot →
      between opening close (slotLine slot i ++ "\n") = ofSlot i)
    (dropped : ∀ {word name}, WrittenAs word name →
      between opening close (dropLine name ++ "\n") = [])
    (result : between opening close "    Ok(())\n" = [])
    (ends : between opening close "\x7d\n" = []) :
    stub.ReadsAs (between opening close) (signed ++ stub.reads.flatMap ofRead ++
      (List.range stub.arity.fixedSlots).flatMap ofSlot) := by
  refine readsAs_between ?_ fun line mem => ?_
  · obtain ⟨word, named⟩ := written.name
    have first := signature named
    have blank : between opening close ("" ++ "\n") = [] := rfl
    have gap : (if stub.reads.isEmpty then [] else [""]).flatMap
        (fun line => between opening close (line ++ "\n")) = [] := by
      split
      · rfl
      · rw [List.flatMap_singleton, blank]
    have ofReads : (stub.reads.map readLine).flatMap
        (fun line => between opening close (line ++ "\n")) = stub.reads.flatMap ofRead := by
      rw [List.flatMap_map]
      refine List.flatMap_congr fun read mem => ?_
      obtain ⟨word, target⟩ := written.target mem
      exact reads target
    have ofSlots : ((slots stub.arity).zipIdx.map fun (slot, i) => slotLine slot i).flatMap
        (fun line => between opening close (line ++ "\n")) =
          (List.range stub.arity.fixedSlots).flatMap ofSlot := by
      have positions :
          (slots stub.arity).zipIdx.map Prod.snd = List.range stub.arity.fixedSlots := by
        rw [List.zipIdx_map_snd, slots_eq, List.length_map, List.length_range,
          List.range_eq_range']
      rw [List.flatMap_map, ← positions, List.flatMap_map]
      refine List.flatMap_congr fun entry mem => ?_
      obtain ⟨word, slot⟩ := written.slot (List.fst_mem_of_mem_zipIdx mem)
      exact taken _ slot
    simp only [front, List.flatMap_append, List.flatMap_singleton, first, ofReads, gap, ofSlots,
      blank, between_arityComment, List.append_nil]
  · rcases written.back mem with ⟨word, name, written, rfl⟩ | rfl | rfl
    · exact dropped written
    · exact result
    · exact ends

/-- A stub calls the accessors of its flags, each with the name of its flag. -/
theorem readsAs_contextCalls : stub.ReadsAs contextCalls (stub.reads.map fun read =>
    [.word (accessor read.kind).1, .mark '(', .literal (Text.quote read.flag)]) := by
  have typed (kind : FlagKind) : Lexeme.word "ctx" ∉ lexemes (accessor kind).2 := by
    cases kind <;> decide
  have whole := written.readsAs [.word "ctx", .mark '.'] ')' []
    (fun read => [[.word (accessor read.kind).1, .mark '(', .literal (Text.quote read.flag)]])
    (fun _ => [])
    (fun written => by simp [(cuts_signatureLine written.isWord).between_eq, occurrences])
    (fun written => by
      simp [(cuts_readLine written.isWord).between_eq, occurrences, occurrences_skip (typed _)])
    (fun i written => by simp [(cuts_slotLine written.isWord i).between_eq, occurrences])
    (fun written => by simp [(cuts_dropLine written.isWord).between_eq, occurrences])
    rfl rfl
  rwa [List.flatMap_eq_nil_iff.mpr fun _ _ => rfl, ← List.map_eq_flatMap, List.append_nil]
    at whole

/-- A stub takes each word that is always there. -/
theorem readsAs_indexings : stub.ReadsAs indexings
    ((List.range stub.arity.fixedSlots).map fun i => [.word (toString i)]) := by
  have typed (kind : FlagKind) : Lexeme.word "args" ∉ lexemes (accessor kind).2 := by
    cases kind <;> decide
  have whole := written.readsAs [.word "args", .mark '['] ']' [] (fun _ => [])
    (fun i => [[.word (toString i)]])
    (fun written => by simp [(cuts_signatureLine written.isWord).between_eq, occurrences])
    (fun written => by
      simp [(cuts_readLine written.isWord).between_eq, occurrences, occurrences_skip (typed _)])
    (fun i written => by simp [(cuts_slotLine written.isWord i).between_eq, occurrences])
    (fun written => by simp [(cuts_dropLine written.isWord).between_eq, occurrences])
    rfl rfl
  rwa [List.flatMap_eq_nil_iff.mpr fun _ _ => rfl, ← List.map_eq_flatMap] at whole

/-- A stub defines its function. -/
theorem readsAs_definitions : stub.ReadsAs definitions [[.word stub.name]] := by
  have typed (kind : FlagKind) : Lexeme.word "fn" ∉ lexemes (accessor kind).2 := by
    cases kind <;> decide
  have method (kind : FlagKind) : "fn" ≠ (accessor kind).1 := by
    cases kind <;> decide
  have other {word name : String} (written : WrittenAs word name) : "fn" ≠ name := by
    rintro rfl
    exact written.notKeyword (by decide)
  have digits (i : Nat) : "fn" ≠ i.repr := by
    intro same
    have letter : 'f' ∈ i.repr.toList := by simp [← same]
    rw [Nat.toList_repr] at letter
    cases Nat.isDigit_of_mem_toDigits (by decide) (by decide) letter
  have whole := written.readsAs [.word "fn"] '(' [[.word stub.name]] (fun _ => []) (fun _ => [])
    (fun written => by
      simp [(cuts_signatureLine written.isWord).between_eq, occurrences, other written])
    (fun written => by
      simp [(cuts_readLine written.isWord).between_eq, occurrences, occurrences_skip (typed _),
        other written, method])
    (fun i written => by
      simp [(cuts_slotLine written.isWord i).between_eq, occurrences, other written, digits])
    (fun written => by
      simp [(cuts_dropLine written.isWord).between_eq, occurrences, other written])
    rfl rfl
  rwa [List.flatMap_eq_nil_iff.mpr fun _ _ => rfl, List.flatMap_eq_nil_iff.mpr fun _ _ => rfl]
    at whole

/-- No line of the code of a stub holds a line feed or ends with a carriage return. -/
theorem whole_of_mem {line : String}
    (mem : line ∈ { stub with summary := "", path := "" }.lines) :
    '\n' ∉ line.toList ∧ line.toList.getLast? ≠ some '\r' := by
  have ofCuts {line : String} {ls : List Lexeme} (h : Cuts line ls) :
      '\n' ∉ line.toList ∧ line.toList.getLast? ≠ some '\r' := ⟨h.whole, h.ends⟩
  rw [lines_eq] at mem
  simp only [front, List.mem_cons, List.mem_append, List.mem_map, List.mem_ite_nil_left,
    List.not_mem_nil, or_false] at mem
  rcases mem with rfl | (((((rfl | ⟨read, listed, rfl⟩) | ⟨-, rfl⟩) | rfl) | ⟨entry, slot, rfl⟩) |
    rfl) | rfl | mem
  · decide
  · obtain ⟨word, written⟩ := written.name
    exact ofCuts (cuts_signatureLine written.isWord)
  · obtain ⟨word, written⟩ := written.target listed
    exact ofCuts (cuts_readLine written.isWord)
  · decide
  · obtain ⟨whole, ends⟩ := arityComment_whole stub.arity
    show '\n' ∉ ("    // " ++ arityComment stub.arity).toList ∧
      ("    // " ++ arityComment stub.arity).toList.getLast? ≠ some '\r'
    rw [String.toList_append, List.getLast?_append]
    refine ⟨by simp [whole], ?_⟩
    cases last : (arityComment stub.arity).toList.getLast? with
    | none => simp
    | some c => simpa [last] using ends
  · obtain ⟨word, written⟩ := written.slot (List.fst_mem_of_mem_zipIdx slot)
    exact ofCuts (cuts_slotLine written.isWord _)
  · decide
  · decide
  · rcases written.back mem with ⟨word, name, written, rfl⟩ | rfl | rfl
    · exact ofCuts (cuts_dropLine written.isWord)
    · decide
    · decide

/-- The lines of the code of a stub bind its local names, in order, and no others. -/
theorem boundNames_code : (Text.lines stub.code).filterMap boundName? = stub.locals := by
  rw [code, render, Text.lines_unlines_of_whole fun line mem => written.whole_of_mem mem]
  exact boundNames_lines written.locals

end Written

end Stub

/-! ### Local names -/

/-- The lines that a stub is put together of, and those of its code, bind a name for each flag and
then one for each word that is always there. All of them are distinct, none is that of a parameter,
and each is a plain identifier or a keyword in its raw form. Whatever names are taken and whatever
text a name is made from, the search for one that is free ends with the first that is. -/
theorem locals_apart (spec : HandlerSpec) (stub : Stub) (made : Stub.ofSpec spec = .ok stub) :
    stub.lines.filterMap boundName? = stub.locals ∧
      (Text.lines stub.code).filterMap boundName? = stub.locals ∧
      (∃ targets, targets.length = spec.flags.length ∧
        stub.locals = targets ++ (List.range stub.arity.fixedSlots).map fun i => s!"arg{i}") ∧
      stub.locals.Nodup ∧
      (∀ name ∈ stub.locals, name ∉ parameters ∧ (IsPlainIdentifier name ∨
        ∃ keyword ∈ keywords, keyword ∉ barredKeywords ∧ name = "r#" ++ keyword)) ∧
      ∀ taken base, IsFresh taken base (freshName taken base) := by
  have written := Stub.written_of_ofSpec made
  obtain ⟨distinct, each⟩ := Stub.locals_of_ofSpec made
  refine ⟨Stub.boundNames_lines written.locals, written.boundNames_code, ?_, distinct, ?_,
    isFresh_freshName⟩
  · refine ⟨stub.reads.map FlagRead.target, ?_, rfl⟩
    rw [Stub.targets_of_ofSpec made, length_freshNames, List.length_map]
  · intro name mem
    obtain ⟨free, word, written⟩ := each name mem
    refine ⟨free, ?_⟩
    cases written with
    | plain plain => exact .inl plain
    | raw keyword unbarred => exact .inr ⟨word, keyword, unbarred, rfl⟩

/-- A function with two words and flags whose names are hard to turn into local names. -/
def forgeSpec : HandlerSpec where
  name := "bend"
  path := "forge bend"
  useLine := "bend <rod> <angle>"
  summary := "Bend a rod"
  flags := ["type", "Type", "args", "ctx", "arg0", "", "_", "self", "9lives", "dry.run", "été"].map
    fun name => .ofKind name .bool "Whatever"
  args := some (.exactly 2)

theorem locals_apart_forge :
    ∃ stub, Stub.ofSpec forgeSpec = .ok stub ∧
      stub.locals = ["r#type", "type2", "args2", "ctx2", "arg02", "value", "value2", "self_",
        "_9lives", "dry_run", "_t_", "arg0", "arg1"] ∧
      (Text.lines stub.code).filterMap boundName? = stub.locals ∧ stub.locals.Nodup := by
  have named : (Stub.ofSpec forgeSpec).map Stub.locals = .ok ["r#type", "type2", "args2", "ctx2",
      "arg02", "value", "value2", "self_", "_9lives", "dry_run", "_t_", "arg0", "arg1"] := by
    decide +kernel
  obtain ⟨stub, made, locals⟩ := map_eq_ok_iff.mp named
  obtain ⟨-, bound, -, distinct, -⟩ := locals_apart forgeSpec stub made
  exact ⟨stub, made, locals, bound, distinct⟩

end ToolTree.Source
