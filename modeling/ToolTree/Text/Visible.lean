/-!
What stays of a text when it is written without terminal control.

A control sequence starts with the escape character; its end depends on the character after
that. Sequences are dropped, and so are the control characters that are not layout (tab, line
feed, form feed and carriage return). Everything else stays. Within a sequence a character beyond
ASCII says nothing, except that some strings end with the octet 9C in the encoding of one.
`visibleRuns` keeps apart the stretches between dropped parts, since a width is counted in each
stretch on its own.

Layout stays within the shorter sequences. In a text it ends the sequence for good; in a stream
the sequence only waits, and the next control character takes it up again. So `visible` and
`streamed` differ on what follows layout in an open sequence, and nowhere else.
-/

namespace ToolTree.Text

/-- Whether a character is an ASCII control character. -/
def isControl (c : Char) : Bool :=
  c.toNat < 0x20 || c.toNat == 0x7f

/-- The control characters that lay a text out. -/
def isLayout (c : Char) : Bool :=
  c == '\t' || c == '\n' || c == '\x0c' || c == '\r'

/-- Whether a character stays outside all sequences. -/
def isWritten (c : Char) : Bool :=
  !isControl c || isLayout c

/-- Whether a character is beyond ASCII. -/
def isWide (c : Char) : Bool :=
  c.toNat ≥ 0x80

/-- Whether the octet 9C is part of the encoding of a character. -/
def holdsTerminator (c : Char) : Bool :=
  (String.utf8EncodeChar c).contains 0x9c

/-- Where in a control sequence the reading stands. -/
inductive Sequence where
  | outside
  | escape
  | intermediate
  | parameters
  /-- The beginning of a device control string. -/
  | deviceStart
  | deviceParameters
  | deviceIntermediate
  /-- A command to the terminal, which a bell ends. -/
  | command
  /-- A string that the octet 9C ends. -/
  | string
  deriving DecidableEq, Repr

namespace Sequence

/-- The place after the character that follows an escape. -/
def afterEscape (c : Char) : Sequence :=
  if c == '[' then .parameters
  else if c == ']' then .command
  else if c == 'P' then .deviceStart
  else if c == 'X' || c == '^' || c == '_' then .string
  else if c.toNat < 0x30 then .intermediate
  else .outside

/-- The place after a character of the head of a device control string, whose parameters stand
before its intermediate characters. -/
def afterDevice (place : Sequence) (c : Char) : Sequence :=
  if c.toNat ≥ 0x40 then .string
  else if c.toNat < 0x30 then .deviceIntermediate
  else
    match place with
    | .deviceStart => .deviceParameters
    | .deviceParameters => if c.toNat < 0x3c then .deviceParameters else .string
    | _ => .string

/-- The place after one more character within a sequence in which layout stays, and whether the
character stays. -/
def nextPlain (place : Sequence) (c : Char) : Sequence × Bool :=
  if isLayout c then (place, true)
  else if isControl c || isWide c then (place, false)
  else
    match place with
    | .escape => (afterEscape c, false)
    | .parameters => (if c.toNat < 0x40 then .parameters else .outside, false)
    | .intermediate => (if c.toNat < 0x30 then .intermediate else .outside, false)
    | _ => (.outside, false)

/-- The place after one more character, and whether the character stays. -/
def next (place : Sequence) (c : Char) : Sequence × Bool :=
  if c == '\x1b' then (.escape, false)
  else if c == '\x18' || c == '\x1a' then (.outside, false)
  else
    match place with
    | .outside => (.outside, isWritten c)
    | .command => (if c == '\x07' then .outside else .command, false)
    | .string => (if holdsTerminator c then .outside else .string, false)
    | .deviceStart | .deviceParameters | .deviceIntermediate =>
      (if isControl c || isWide c then place else afterDevice place c, false)
    | .escape | .intermediate | .parameters => nextPlain place c

end Sequence

/-- The stretches of a text between dropped characters, empty ones included. A character that
stays ends the sequence that it stands in. -/
def visibleRuns (place : Sequence) : List Char → List (List Char)
  | [] => [[]]
  | c :: rest =>
    match place.next c with
    | (place, false) => [] :: visibleRuns place rest
    | (_, true) =>
      match visibleRuns .outside rest with
      | [] => [[c]]
      | first :: others => (c :: first) :: others

/-- The text without control sequences. -/
def visible (s : String) : String :=
  String.ofList (visibleRuns .outside s.toList).flatten

/-- What stays of the rest of a stream. While characters are being written, a sequence that
layout stands in waits for the next control character; a character beyond ASCII ends it. -/
def streamedFrom (place : Sequence) (writing : Bool) : List Char → List Char
  | [] => []
  | c :: rest =>
    if writing && isWritten c then
      c :: streamedFrom (if isWide c then .outside else place) true rest
    else
      match place.next c with
      | (place, false) => streamedFrom place false rest
      | (place, true) => c :: streamedFrom place true rest

/-- The text as a stream without terminal control shows it. -/
def streamed (s : String) : String :=
  String.ofList (streamedFrom .outside false s.toList)

/-- The columns that characters take, one each. A control character and what follows it, up to
and including the next `m`, take none. -/
def columns (control : Bool) : List Char → Nat
  | [] => 0
  | c :: rest =>
    if isControl c then columns true rest
    else if control then columns (c != 'm') rest
    else columns false rest + 1

/-- The columns of a text as it stands. -/
def width (s : String) : Nat :=
  columns false s.toList

/-- The columns of what stays of a text. -/
def visibleWidth (s : String) : Nat :=
  (visibleRuns .outside s.toList).foldr (fun run n => columns false run + n) 0

/-! ### Texts one behind the other -/

/-- Where the reading stands after some characters. A character that stays ends the sequence that
it stands in. -/
def Sequence.after (place : Sequence) : List Char → Sequence
  | [] => place
  | c :: rest =>
    match place.next c with
    | (place, false) => after place rest
    | (_, true) => after .outside rest

theorem flatten_visibleRuns_cons (place : Sequence) (c : Char) (rest : List Char) :
    (visibleRuns place (c :: rest)).flatten =
      match place.next c with
      | (place, false) => (visibleRuns place rest).flatten
      | (_, true) => c :: (visibleRuns .outside rest).flatten := by
  rcases stepped : place.next c with ⟨next, _ | _⟩
  · simp only [visibleRuns, stepped, List.flatten_cons, List.nil_append]
  · simp only [visibleRuns, stepped]
    cases visibleRuns .outside rest with
    | nil => rfl
    | cons first others => rfl

theorem flatten_visibleRuns_append (place : Sequence) (cs rest : List Char) :
    (visibleRuns place (cs ++ rest)).flatten =
      (visibleRuns place cs).flatten ++ (visibleRuns (place.after cs) rest).flatten := by
  induction cs generalizing place with
  | nil => rfl
  | cons c others ih =>
    rw [List.cons_append, flatten_visibleRuns_cons, flatten_visibleRuns_cons, Sequence.after]
    split
    · exact ih _
    · rw [ih, List.cons_append]

theorem Sequence.after_append (place : Sequence) (cs rest : List Char) :
    place.after (cs ++ rest) = (place.after cs).after rest := by
  induction cs generalizing place with
  | nil => rfl
  | cons c others ih =>
    rw [List.cons_append, after, after]
    split
    · exact ih _
    · exact ih _

/-- Behind a text whose sequences are all ended, another text is shown as it is on its own. -/
theorem visible_append {s : String} (ended : Sequence.after .outside s.toList = .outside)
    (t : String) : visible (s ++ t) = visible s ++ visible t := by
  rw [visible, String.toList_append, flatten_visibleRuns_append, ended, String.ofList_append]
  rfl

/-- Without an escape character no sequence starts. -/
theorem Sequence.after_outside {cs : List Char} (free : '\x1b' ∉ cs) :
    Sequence.after .outside cs = .outside := by
  induction cs with
  | nil => rfl
  | cons c rest ih =>
    rw [List.mem_cons, not_or] at free
    have stays : (Sequence.next .outside c).1 = .outside := by
      rw [next, if_neg (by simpa using Ne.symm free.1)]
      split
      · rfl
      · rfl
    rw [after]
    split
    · next place same =>
      rw [same] at stays
      cases stays
      exact ih free.2
    · exact ih free.2

end ToolTree.Text
