import AgentFlow.Skeleton.Dialect

/-!
# Skeletons in Python

The program is a `StateGraph` of LangGraph: a typed dictionary for the state, a function with a
docstring for every node, and a builder.
-/

namespace AgentFlow.Skeleton.Python

open Text

def indent : String := "    "

/-- The text of a docstring: backslashes are doubled, and three quotes in a row are escaped. -/
def docChars : List Char → List Char
  | '\x22' :: '\x22' :: '\x22' :: cs =>
    '\x5c' :: '\x22' :: '\x5c' :: '\x22' :: '\x5c' :: '\x22' :: docChars cs
  | '\x5c' :: cs => '\x5c' :: '\x5c' :: docChars cs
  | c :: cs => c :: docChars cs
  | [] => []

def docText (s : String) : String := String.ofList (docChars s.toList)

def header (plan : Plan) (project : String) : List String := [
  "\"\"\"" ++ docText (oneLine project) ++ ": LangGraph skeleton generated by GraphBuilder.",
  "",
  "Nodes: " ++ plan.nodes.length.repr ++ " | Entry: " ++ entryName plan,
  "\"\"\"",
  "",
  if plan.branches.isEmpty then "from typing import TypedDict"
  else "from typing import Literal, TypedDict",
  "",
  "from langgraph.graph import END, START, StateGraph"]

def state : List String := [
  "class FlowState(TypedDict, total=False):",
  indent ++ "messages: list",
  indent ++ "route: str  # route key chosen by the last branching node"]

/-- The description of a node in its docstring, after an empty line. -/
def description (p : PlannedNode) : List String :=
  match descriptionLines p with
  | [] => []
  | texts => "" :: texts.map fun s => trimEnd (indent ++ docText s)

def docstring (p : PlannedNode) : List String :=
  [indent ++ "\"\"\"" ++ docText (title p)] ++ description p ++ [
    "",
    indent ++ "Roles: " ++ roleNames p,
    indent ++ "Tools: " ++ toolNames docText p,
    indent ++ "\"\"\""]

/-- How a node's function ends: with the first route of its branch, or with nothing. -/
def result : Option Branch → List String
  | some b => [
      indent ++ "# " ++ returnNote b,
      indent ++ "return \x7b\"route\": " ++ firstRoute b ++ "\x7d"]
  | none => [indent ++ "return \x7b\x7d"]

def unit (p : PlannedNode) (name : String) (branch : Option Branch) : List String :=
  ["def " ++ name ++ "(state: FlowState) -> dict:"] ++ docstring p ++ [
    indent ++ "tools = " ++ listLiteral p.node.tools,
    indent ++ "# " ++ todoNote (title p)] ++ result branch

def router (b : Branch) (name : String) : List String := [
  "def " ++ name ++ "(state: FlowState) -> Literal[" ++ ", ".intercalate (routeLiterals b) ++ "]:",
  indent ++ "\"\"\"Pick the branch taken after " ++ b.source ++ ".\"\"\"",
  indent ++ "return state[\"route\"]"]

def metadata (p : PlannedNode) : String :=
  "\x7b\"label\": " ++ literal p.node.label ++
    ", \"description\": " ++ literal p.node.description ++
    ", \"roles\": " ++ listLiteral (p.node.roles.map Role.text) ++
    ", \"tools\": " ++ listLiteral p.node.tools ++ "\x7d"

def addNode (p : PlannedNode) (name : String) : List String := [
  "graph.add_node(",
  indent ++ literal p.key ++ ",",
  indent ++ name ++ ",",
  indent ++ "metadata=" ++ metadata p ++ ",",
  ")"]

def addEntry (plan : Plan) : List String :=
  match plan.entry with
  | none => []
  | some key =>
    [""] ++ (if plan.entryIsFallback then ["# " ++ fallbackNote] else []) ++
      ["graph.add_edge(START, " ++ literal key ++ ")"]

/-- What cannot be reached is named. -/
def noteUnreachable (plan : Plan) : List String :=
  if plan.unreachable.isEmpty then [] else ["# " ++ unreachableNote plan.unreachable]

/-- Lines set off by an empty line, if there are any. -/
def setOff (body : List String) : List String := if body.isEmpty then [] else "" :: body

def addEdge (edge : String × String) : String :=
  "graph.add_edge(" ++ literal edge.1 ++ ", " ++ literal edge.2 ++ ")"

def addBranch (b : Branch) (name : String) : List String :=
  ["", "graph.add_conditional_edges(", indent ++ literal b.source ++ ",", indent ++ name ++ ",",
    indent ++ "\x7b"] ++
  b.renamed.map (fun key => indent ++ indent ++ "# " ++ renamedNote key) ++
  b.routes.map (fun r => indent ++ indent ++ literal r.key ++ ": " ++ literal r.target ++ ",") ++
  [indent ++ "\x7d,", ")"]

def addSink (key : String) : String := "graph.add_edge(" ++ literal key ++ ", END)"

def statements (plan : Plan) (names : FunctionNames) : List String :=
  ["graph = StateGraph(FlowState)", ""] ++
  (if plan.nodes.isEmpty then ["# graph has no nodes yet"] else []) ++
  (plan.nodes.zip names.units).flatMap (fun (p, name) => addNode p name) ++
  addEntry plan ++ noteUnreachable plan ++ setOff (plan.edges.map addEdge) ++
  (plan.branches.zip names.routers).flatMap (fun (b, name) => addBranch b name) ++
  setOff (plan.sinks.map addSink) ++ ["", "return graph.compile()"]

/-- A line of a function's body; an empty line stays empty. -/
def bodyLine (line : String) : String := if line = "" then "" else indent ++ line

def wiring (plan : Plan) (names : FunctionNames) : List String :=
  ["def build_graph():"] ++ (statements plan names).map bodyLine ++ ["", "", "app = build_graph()"]

def dialect : Dialect where
  gap := ["", ""]
  unitName := id
  routerName := fun key => "route_from_" ++ key
  header := header
  state := state
  unit := unit
  router := router
  wiring := wiring

end AgentFlow.Skeleton.Python
