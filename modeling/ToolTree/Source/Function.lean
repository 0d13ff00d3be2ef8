import ToolTree.Decl.Site
import ToolTree.Event

/-!
The functions that a tool calls, each described by the first command that names it.

The descriptions stand in the order of the walk over the sites. A later command with the same
function adds no description; it is reported instead.
-/

namespace ToolTree

/-- A function to be written for a tool. -/
structure HandlerSpec where
  name : String
  path : String
  useLine : String
  summary : String
  flags : List FlagDecl
  args : Option ArgsDecl
  deriving DecidableEq, Repr

/-- The description that a site gives of its function. -/
def HandlerSpec.ofSite (site : Site) : HandlerSpec where
  name := site.command.handler
  path := site.path
  useLine := site.command.useLine
  summary := site.command.summary
  flags := site.command.flags
  args := site.command.args

/-- The functions of sites whose names are not among those `seen`, the first site of each. -/
def handlerSpecs (seen : List String) : List Site → List HandlerSpec
  | [] => []
  | site :: rest =>
    if site.command.handler = "" ∨ site.command.handler ∈ seen then handlerSpecs seen rest
    else .ofSite site :: handlerSpecs (site.command.handler :: seen) rest

/-- The sites whose function is named by a site before them, or is among those `seen`. -/
def repeatedSites (seen : List String) : List Site → List Site
  | [] => []
  | site :: rest =>
    if site.command.handler = "" then repeatedSites seen rest
    else if site.command.handler ∈ seen then site :: repeatedSites seen rest
    else repeatedSites (site.command.handler :: seen) rest

/-- The functions of a tool. -/
def ToolDecl.handlerSpecs (tool : ToolDecl) : List HandlerSpec :=
  ToolTree.handlerSpecs [] tool.sites

/-- The event that a site names a function again. -/
def Site.repeated (site : Site) : Event where
  level := .warn
  message := "Handler already collected, skipping"
  fields := [("run_func", .shown site.command.handler), ("path", .shown site.path)]

/-- What is reported while the functions of a tool are collected. -/
def ToolDecl.collectEvents (tool : ToolDecl) : List Event :=
  (repeatedSites [] tool.sites).map Site.repeated

end ToolTree
