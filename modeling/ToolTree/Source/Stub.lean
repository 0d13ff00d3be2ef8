import ToolTree.Source.Function
import ToolTree.Source.Identifier
import ToolTree.Text.Quoted

/-!
Stubs: for every function of a tool, a first version in source text that reads each flag and
each word that is always there, and does nothing with them.

A stub is worked out as data first, so that what it reads can be compared with what a command
declares; `Stub.render` writes it. A module holds the stubs of all functions of a tool.
-/

namespace ToolTree

/-- Why source text cannot be generated. -/
inductive GenerateError where
  | noFunctions
  | invalidModule (name : String)
  | invalidFunctionName (path name : String)
  | unsupportedFlagType (function flag : String) (source : UnknownFlagKind)
  | invalidArgs (function : String) (source : RuleError)
  deriving DecidableEq, Repr

/-- The text of a generation error. -/
def GenerateError.message : GenerateError → String
  | .noFunctions => "no run_func found in configuration"
  | .invalidModule name =>
    s!"invalid module name {Text.quote name}: must be a Rust identifier other than `main`"
  | .invalidFunctionName path name =>
    "command \"" ++ path ++ s!"\": run_func {Text.quote name} is not a valid Rust function name"
  | .unsupportedFlagType function flag source =>
    s!"function {function}: flag {flag}: {source.message}"
  | .invalidArgs function source => s!"function {function}: {source.message}"

namespace Source

/-- The call that reads a flag of a type, and the type of the value in the source. -/
def accessor : FlagKind → String × String
  | .string => ("get_string", "String")
  | .bool => ("get_bool", "bool")
  | .int => ("get_int", "i64")
  | .stringSlice => ("get_string_slice", "Vec<String>")

/-- What a stub says of its words. -/
def arityComment : Arity → String
  | .none => "accepts no arguments"
  | .any => "accepts any number of arguments"
  | .exactly n => s!"accepts exactly {n} argument(s)"
  | .atLeast n => s!"accepts at least {n} argument(s)"
  | .atMost n => s!"accepts at most {n} argument(s)"
  | .between low high => s!"accepts {low} to {high} argument(s)"

/-- A module name must be an identifier other than `main`. -/
def checkModule (moduleName : String) : Except GenerateError Unit :=
  if isIdentifier moduleName && moduleName != "main" then .ok () else .error (.invalidModule moduleName)

end Source

namespace HandlerSpec

/-- The name of the function as the source writes it. -/
def functionName (spec : HandlerSpec) : Except GenerateError String :=
  match Source.functionName? spec.name with
  | some name => .ok name
  | none => .error (.invalidFunctionName spec.path spec.name)

/-- The rule on the words that the function is called with. -/
def arity (spec : HandlerSpec) : Except GenerateError Arity :=
  match spec.args with
  | none => .ok .any
  | some args =>
    match args.arity with
    | .ok rule => .ok rule
    | .error e => .error (.invalidArgs spec.name e)

/-- The value type of a flag of the function. -/
def flagKind (spec : HandlerSpec) (flag : FlagDecl) : Except GenerateError FlagKind :=
  match flag.flagKind with
  | .ok kind => .ok kind
  | .error e => .error (.unsupportedFlagType spec.name flag.name e)

end HandlerSpec

namespace Source

/-- A line of a stub that reads a flag into a local name. -/
structure FlagRead where
  target : String
  flag : String
  kind : FlagKind
  deriving DecidableEq, Repr

/-- What a stub contains. -/
structure Stub where
  name : String
  summary : String
  path : String
  reads : List FlagRead
  arity : Arity
  deriving DecidableEq, Repr

/-- The names of the parameters of every stub. -/
def parameters : List String :=
  ["ctx", "args"]

namespace Stub

/-- The local names of the words that are always there. -/
def slots (rule : Arity) : List String :=
  (List.range rule.fixedSlots).map fun i => s!"arg{i}"

/-- The line that describes a function: its use line, and its summary if it has one. -/
def describe (spec : HandlerSpec) : String :=
  if spec.summary = "" then s!"`{spec.useLine}`"
  else s!"`{spec.useLine}`: {spec.summary}"

/-- The stub of a function. The local name of a flag is its name in camel case, made distinct
from the parameters, the words and the flags before it. -/
def ofSpec (spec : HandlerSpec) : Except GenerateError Stub := do
  let name ← spec.functionName
  let arity ← spec.arity
  let kinds ← spec.flags.mapM spec.flagKind
  let targets := freshNames (slots arity ++ parameters)
    (spec.flags.map fun flag => camelCase flag.name)
  let reads := (targets.zip (spec.flags.zip kinds)).map fun (target, flag, kind) =>
    { target, flag := flag.name, kind }
  return { name, summary := describe spec, path := spec.path, reads, arity }

/-- The names that the stub binds: one for each flag, then one for each word. -/
def locals (stub : Stub) : List String :=
  stub.reads.map FlagRead.target ++ slots stub.arity

/-- The lines of a stub. Free text stands behind slashes, and a line feed in it ends the comment. -/
def lines (stub : Stub) : List String :=
  let reads := stub.reads.map fun read =>
    let (method, type) := accessor read.kind
    s!"    let {read.target}: {type} = ctx.{method}({Text.quote read.flag})?;"
  let words := (slots stub.arity).zipIdx.map fun (slot, i) =>
    s!"    let {slot} = args[{i}].as_str();"
  [s!"/// {stub.summary}",
    s!"pub fn {stub.name}(ctx: &Invocation<'_>, args: &[String]) -> HandlerResult \x7b"] ++
    reads ++ (if stub.reads.isEmpty then [] else [""]) ++
    [s!"    // {arityComment stub.arity}"] ++ words ++
    ["", s!"    // TODO: implement `{stub.path}`"] ++
    (if stub.reads.isEmpty then ["    let _ = ctx;"] else []) ++
    (if stub.arity.fixedSlots = 0 then ["    let _ = args;"] else []) ++
    (stub.locals.map fun name => s!"    let _ = {name};") ++
    ["    Ok(())", "\x7d"]

/-- The text of a stub. -/
def render (stub : Stub) : String :=
  Text.unlines stub.lines

end Stub

/-! ### The module of all stubs -/

/-- The lines before the first stub. -/
def moduleHeader (tool : ToolDecl) : List String := [
  s!"//! Command handlers for `{tool.rootName}`.",
  "//!",
  "//! Generated by cmdtree from the `run_func` entries of the command",
  "//! configuration. Signatures must match the registry; bodies are yours.",
  "",
  "#![allow(non_snake_case)]",
  "",
  "use command_tree::\x7bHandlerResult, Invocation\x7d;"]

/-- The stubs of functions, each reported when it is done. -/
def stubs : List HandlerSpec → Traced GenerateError (List Stub)
  | [] => return []
  | spec :: rest => do
    let stub ← Traced.ofExcept (Stub.ofSpec spec)
    Traced.report {
      level := .debug
      message := "Generated handler"
      fields := [("function", .shown spec.name), ("path", .shown spec.path)] }
    return stub :: (← stubs rest)

/-- The functions of a tool, which must have one, for a module with a proper name. -/
def moduleSpecs (tool : ToolDecl) (moduleName : String) :
    Traced GenerateError (List HandlerSpec) := do
  Traced.ofExcept (checkModule moduleName)
  let specs ← (⟨tool.collectEvents, .ok tool.handlerSpecs⟩ : Traced _ _)
  if specs.isEmpty then Traced.error .noFunctions else return specs

/-- The module with the stubs of all functions of a tool. -/
def handlerModule (tool : ToolDecl) (moduleName : String) : Traced GenerateError String := do
  let specs ← moduleSpecs tool moduleName
  let stubs ← stubs specs
  Traced.report {
    level := .info
    message := "Generated handler module"
    fields := [("module", .quoted moduleName), ("handlers", .number specs.length)] }
  return Text.unlines (moduleHeader tool) ++ String.join (stubs.map fun s => "\n" ++ s.render)

end Source

end ToolTree
