import AgentFlow.Plan.Basic
import AgentFlow.Text.Lines
import AgentFlow.Text.Literal

/-!
# Program skeletons

A dialect says how a target language spells the pieces of a program; the pieces and their order are
the same for all: the header, the state, one function for every planned node, one for every branch,
and the wiring. Each piece is a list of lines, and a program's function names are all distinct.
-/

namespace AgentFlow.Skeleton

open Text

/-- The function names of a program: one for each planned node and one for each branch, in the
plan's order. -/
structure FunctionNames where
  units : List String
  routers : List String
  deriving DecidableEq, Repr

/-- How a target language spells the pieces of a program. -/
structure Dialect where
  /-- The lines between two sections. -/
  gap : List String
  /-- The wanted name of the function of the node with a key. -/
  unitName : String → String
  /-- The wanted name of the function that chooses the route out of the node with a key. -/
  routerName : String → String
  /-- The lines before the first definition. -/
  header : Plan → (project : String) → List String
  /-- The definition of the state. -/
  state : List String
  /-- The function of a node; the branch is the node's, if it has one. -/
  unit : PlannedNode → (name : String) → Option Branch → List String
  /-- The function that chooses the route out of a node. -/
  router : Branch → (name : String) → List String
  /-- The construction of the graph from the functions. -/
  wiring : Plan → FunctionNames → List String

/-- The function names of a plan in a dialect, made distinct by numbers. -/
def Dialect.functionNames (d : Dialect) (plan : Plan) : FunctionNames :=
  let wanted := plan.nodes.map (fun p => d.unitName p.key) ++
    plan.branches.map (fun b => d.routerName b.source)
  let names := freshAll "" [] wanted
  ⟨names.take plan.nodes.length, names.drop plan.nodes.length⟩

def branchAt (plan : Plan) (key : String) : Option Branch :=
  plan.branches.find? (·.source = key)

def Dialect.sections (d : Dialect) (plan : Plan) (project : String) : List (List String) :=
  let names := d.functionNames plan
  [d.header plan project, d.state] ++
    (plan.nodes.zip names.units).map (fun (p, name) => d.unit p name (branchAt plan p.key)) ++
    (plan.branches.zip names.routers).map (fun (b, name) => d.router b name) ++
    [d.wiring plan names]

def Dialect.render (d : Dialect) (plan : Plan) (project : String) : String :=
  "\n".intercalate (d.gap.intercalate (d.sections plan project)) ++ "\n"

def entryName (plan : Plan) : String := plan.entry.getD "none"

/-- The title of a node: its label on one line, or its key if that is empty. -/
def title (p : PlannedNode) : String :=
  let label := oneLine p.node.label
  if label = "" then p.key else label

/-- The lines of a node's description; none if it is blank. -/
def descriptionLines (p : PlannedNode) : List String := lines (trim p.node.description)

def roleNames (p : PlannedNode) : String := ", ".intercalate (p.node.roles.map Role.text)

def toolNames (escape : String → String) (p : PlannedNode) : String :=
  if p.node.tools.isEmpty then "none" else ", ".intercalate (p.node.tools.map escape)

def listLiteral (texts : List String) : String := "[" ++ ", ".intercalate (texts.map literal) ++ "]"

def routeLiterals (b : Branch) : List String := b.routes.map fun r => literal r.key

/-- A comment says that the entry is a fallback. -/
def fallbackNote : String := "no node is free of incoming edges; entry defaults to the first node"

/-- A comment names what cannot be reached. -/
def unreachableNote (keys : List String) : String :=
  "unreachable from the entry node: " ++ ", ".intercalate keys

/-- A comment names a route key that was renamed. -/
def renamedNote (key : String) : String := "duplicate route key " ++ literal key ++ " was renamed"

/-- A comment says which tools a node is to be written with. -/
def todoNote (title : String) : String := "TODO: implement " ++ title ++ " with the tools above."

/-- A comment names the route keys that a node may return. -/
def returnNote (b : Branch) : String := "return one of: " ++ ", ".intercalate (routeLiterals b)

def firstRoute (b : Branch) : String := literal ((b.routes.head?.map Route.key).getD "")

end AgentFlow.Skeleton
