import AgentFlow.Skeleton.Dialect
import AgentFlow.Text.CamelCase

/-!
# Skeletons in TypeScript

The program is a `StateGraph` of LangGraph.js: an annotation for the state, a documented function
for every node, and one chain of calls.
-/

namespace AgentFlow.Skeleton.TypeScript

open Text

def indent : String := "  "

/-- The text of a block comment: what would end the comment is broken up by a backslash. -/
def commentChars : List Char → List Char
  | '*' :: '/' :: cs => '*' :: '\x5c' :: '/' :: commentChars cs
  | c :: cs => c :: commentChars cs
  | [] => []

def commentText (s : String) : String := String.ofList (commentChars s.toList)

def header (plan : Plan) (project : String) : List String := [
  "/**",
  " * " ++ commentText (oneLine project) ++ ": LangGraph.js skeleton generated by GraphBuilder.",
  " *",
  " * Nodes: " ++ plan.nodes.length.repr ++ " | Entry: " ++ entryName plan,
  " */",
  "",
  "import \x7b Annotation, END, START, StateGraph \x7d from \"@langchain/langgraph\";"]

def state : List String := [
  "const FlowState = Annotation.Root(\x7b",
  indent ++ "messages: Annotation<unknown[]>(\x7b",
  indent ++ indent ++ "reducer: (left, right) => left.concat(right),",
  indent ++ indent ++ "default: () => [],",
  indent ++ "\x7d),",
  indent ++ "// route key chosen by the last branching node",
  indent ++ "route: Annotation<string>(),",
  "\x7d);",
  "",
  "type State = typeof FlowState.State;"]

/-- The description of a node in its comment, after an empty line. -/
def description (p : PlannedNode) : List String :=
  match descriptionLines p with
  | [] => []
  | texts => " *" :: texts.map fun s => trimEnd (" * " ++ commentText s)

def docComment (p : PlannedNode) : List String :=
  ["/**", " * " ++ commentText (title p)] ++ description p ++ [
    " *",
    " * Roles: " ++ roleNames p,
    " * Tools: " ++ toolNames commentText p,
    " */"]

/-- How a node's function ends: with the first route of its branch, or with nothing. -/
def result : Option Branch → List String
  | some b => [
      indent ++ "// " ++ returnNote b,
      indent ++ "return \x7b route: " ++ firstRoute b ++ " \x7d;"]
  | none => [indent ++ "return \x7b\x7d;"]

def unit (p : PlannedNode) (name : String) (branch : Option Branch) : List String :=
  docComment p ++ [
    "async function " ++ name ++ "(state: State): Promise<Partial<State>> \x7b",
    indent ++ "const tools = " ++ listLiteral p.node.tools ++ ";",
    indent ++ "// " ++ todoNote (commentText (title p))] ++ result branch ++ ["\x7d"]

def router (b : Branch) (name : String) : List String :=
  let choices := " | ".intercalate (routeLiterals b)
  ["/** Pick the branch taken after " ++ b.source ++ ". */",
    "function " ++ name ++ "(state: State): " ++ choices ++ " \x7b",
    indent ++ "return state.route as " ++ choices ++ ";",
    "\x7d"]

def addNode (p : PlannedNode) (name : String) : String :=
  ".addNode(" ++ literal p.key ++ ", " ++ name ++ ")"

def addEntry (plan : Plan) : List String :=
  match plan.entry with
  | none => []
  | some key =>
    (if plan.entryIsFallback then ["// " ++ fallbackNote] else []) ++
      [".addEdge(START, " ++ literal key ++ ")"]

/-- What cannot be reached is named. -/
def noteUnreachable (plan : Plan) : List String :=
  if plan.unreachable.isEmpty then [] else ["// " ++ unreachableNote plan.unreachable]

def addEdge (edge : String × String) : String :=
  ".addEdge(" ++ literal edge.1 ++ ", " ++ literal edge.2 ++ ")"

def addBranch (b : Branch) (name : String) : List String :=
  [".addConditionalEdges(" ++ literal b.source ++ ", " ++ name ++ ", \x7b"] ++
  b.renamed.map (fun key => indent ++ "// " ++ renamedNote key) ++
  b.routes.map (fun r => indent ++ literal r.key ++ ": " ++ literal r.target ++ ",") ++
  ["\x7d)"]

def addSink (key : String) : String := ".addEdge(" ++ literal key ++ ", END)"

/-- The calls of the chain, with the comments between them. -/
def calls (plan : Plan) (names : FunctionNames) : List String :=
  (plan.nodes.zip names.units).map (fun (p, name) => addNode p name) ++
  addEntry plan ++ noteUnreachable plan ++ plan.edges.map addEdge ++
  (plan.branches.zip names.routers).flatMap (fun (b, name) => addBranch b name) ++
  plan.sinks.map addSink

/-- The lines of a statement, the last of them ended by a semicolon. -/
def terminated : List String → List String
  | [] => []
  | [line] => [line ++ ";"]
  | line :: rest => line :: terminated rest

def wiring (plan : Plan) (names : FunctionNames) : List String :=
  (if plan.nodes.isEmpty then ["// graph has no nodes yet"] else []) ++
  terminated ("const workflow = new StateGraph(FlowState)" ::
    (calls plan names).map (indent ++ ·)) ++
  ["", "export const app = workflow.compile();"]

def dialect : Dialect where
  gap := [""]
  unitName := camelCase
  routerName := fun key => camelCase ("route_from_" ++ key)
  header := header
  state := state
  unit := unit
  router := router
  wiring := wiring

end AgentFlow.Skeleton.TypeScript
