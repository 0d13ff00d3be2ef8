import ToolTree.Text.Lines
import ToolTree.Text.Quoted

/-!
Events that a step of the work reports, and results that carry the events before them.

A `Traced` computation lists the events it reported, in order, beside its result; an error keeps
the events that came before it. `Traced.result` commutes with sequencing, so what is computed
can be studied without the events.
-/

namespace ToolTree

/-- The weight of an event. -/
inductive Level where
  | debug
  | info
  | warn
  deriving DecidableEq, Repr

/-- The word for a level. -/
def Level.label : Level → String
  | .debug => "DEBUG"
  | .info => "INFO"
  | .warn => "WARN"

/-- The value of a field of an event. -/
inductive FieldValue where
  | shown (text : String)
  | quoted (text : String)
  | number (n : Nat)
  | bool (b : Bool)
  deriving DecidableEq, Repr

/-- The text of a field value. -/
def FieldValue.render : FieldValue → String
  | .shown text => text
  | .quoted text => Text.quote text
  | .number n => toString n
  | .bool true => "true"
  | .bool false => "false"

/-- Something worth reporting: a message with named values. -/
structure Event where
  level : Level
  message : String
  fields : List (String × FieldValue)
  deriving DecidableEq, Repr

namespace Event

/-- An event in one text: its level, its message, then each field as `name=value`. -/
def render (e : Event) : String :=
  e.level.label ++ " " ++ e.message ++
    String.join (e.fields.map fun (name, value) => " " ++ name ++ "=" ++ value.render)

/-- The lines of an event's text, each without blanks at its ends. A text that ends with a line
feed has an empty last line. -/
def lines (e : Event) : List String :=
  (Text.splitAt '\n' e.render).map Text.trim

end Event

/-- A result and the events reported on the way to it. -/
structure Traced (ε α : Type) where
  events : List Event
  result : Except ε α

namespace Traced

variable {ε α β : Type}

/-- A value without events. -/
def ok (a : α) : Traced ε α :=
  ⟨[], .ok a⟩

/-- A result without events. -/
def ofExcept (r : Except ε α) : Traced ε α :=
  ⟨[], r⟩

/-- An error without events. -/
def error (e : ε) : Traced ε α :=
  ⟨[], .error e⟩

/-- Reports one event. -/
def report (e : Event) : Traced ε Unit :=
  ⟨[e], .ok ()⟩

/-- Reports events in order. -/
def reportAll (events : List Event) : Traced ε Unit :=
  ⟨events, .ok ()⟩

/-- Goes on with the value, if there is one; the events of both parts are kept in order. -/
def bind (x : Traced ε α) (f : α → Traced ε β) : Traced ε β :=
  match x.result with
  | .ok a => ⟨x.events ++ (f a).events, (f a).result⟩
  | .error e => ⟨x.events, .error e⟩

instance : Monad (Traced ε) where
  pure := ok
  bind := bind

@[simp] theorem result_pure (a : α) : (pure a : Traced ε α).result = .ok a := rfl

@[simp] theorem result_bind (x : Traced ε α) (f : α → Traced ε β) :
    (x >>= f).result = x.result >>= fun a => (f a).result := by
  obtain ⟨events, result⟩ := x
  cases result <;> rfl

@[simp] theorem result_ofExcept (r : Except ε α) : (ofExcept r).result = r := rfl

@[simp] theorem result_error (e : ε) : (error e : Traced ε α).result = .error e := rfl

@[simp] theorem result_report (e : Event) : (report e : Traced ε Unit).result = .ok () := rfl

@[simp] theorem result_reportAll (events : List Event) :
    (reportAll events : Traced ε Unit).result = .ok () := rfl

end Traced

end ToolTree
