import ToolTree.Text.Quoted
import ToolTree.Tree.Invocation

/-!
The functions that commands can be bound to, by name.

A handler takes the positional words, an action takes none and fits only commands without
words. Registering a name again replaces its function. The names are kept in order.
-/

namespace ToolTree

/-- A function that a command can call. It fails with a text. -/
inductive Handler where
  | handler (run : Invocation → List String → Except String Unit)
  | action (run : Invocation → Except String Unit)

namespace Handler

/-- The word for the kind of function. -/
def shape : Handler → String
  | .handler _ => "handler"
  | .action _ => "action"

/-- Whether the function takes no words. -/
def isAction : Handler → Bool
  | .handler _ => false
  | .action _ => true

/-- The words that the function is given of those on a line. -/
def words? (handler : Handler) (words : List String) : Option (List String) :=
  if handler.isAction then none else some words

/-- Calls the function. -/
def call (handler : Handler) (invocation : Invocation) (words : List String) :
    Except String Unit :=
  match handler with
  | .handler run => run invocation words
  | .action run => run invocation

@[simp] theorem call_handler (run : Invocation → List String → Except String Unit)
    (invocation : Invocation) (words : List String) :
    (handler run).call invocation words = run invocation words :=
  rfl

@[simp] theorem call_action (run : Invocation → Except String Unit) (invocation : Invocation)
    (words : List String) : (action run).call invocation words = run invocation :=
  rfl

@[simp] theorem words?_handler (run : Invocation → List String → Except String Unit)
    (words : List String) : (handler run).words? words = some words :=
  rfl

@[simp] theorem words?_action (run : Invocation → Except String Unit) (words : List String) :
    (action run).words? words = none :=
  rfl

end Handler

/-- Functions under their names, in order of the names. -/
structure Registry where
  bindings : List (String × Handler) := []

namespace Registry

/-- The registry with a function under a name. -/
def register (registry : Registry) (name : String) (handler : Handler) : Registry :=
  ⟨Keyed.insert name handler registry.bindings⟩

/-- The registry of a list of functions, registered in order. -/
def ofList (handlers : List (String × Handler)) : Registry :=
  handlers.foldl (fun registry (name, handler) => registry.register name handler) {}

/-- The function under a name. -/
def get? (registry : Registry) (name : String) : Option Handler :=
  Keyed.find? name registry.bindings

/-- Whether a name is registered. -/
def contains (registry : Registry) (name : String) : Bool :=
  (registry.get? name).isSome

/-- The registered names, in order. -/
def names (registry : Registry) : List String :=
  Keyed.keys registry.bindings

/-- The number of registered names. -/
def size (registry : Registry) : Nat :=
  registry.bindings.length

/-- Whether nothing is registered. -/
def isEmpty (registry : Registry) : Bool :=
  registry.bindings.isEmpty

/-- The names with the kinds of their functions, in one line. -/
def render (registry : Registry) : String :=
  "\x7b" ++ String.intercalate ", " (registry.bindings.map fun (name, handler) =>
    Text.quote name ++ ": Binding::" ++ handler.shape) ++ "\x7d"

/-! ### Look-up after registering -/

@[simp] theorem get?_register_self (registry : Registry) (name : String) (handler : Handler) :
    (registry.register name handler).get? name = some handler :=
  Keyed.find?_insert_self name handler registry.bindings

theorem get?_register_of_ne {name other : String} (h : name ≠ other) (registry : Registry)
    (handler : Handler) : (registry.register name handler).get? other = registry.get? other :=
  Keyed.find?_insert_of_ne h handler registry.bindings

end Registry

end ToolTree
