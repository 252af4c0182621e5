import AgentFlow.Canonical
import AgentFlow.Identifier

/-!
# Templates

A template is a flow to start from: nodes without identifiers, and edges between them by number. An
instance of a template gets fresh identifiers, a place on the canvas for every node, and the
canonical form.
-/

namespace AgentFlow.Catalog

/-- A node of a template, with the role that it starts with. -/
structure TemplateNode where
  kind : Role
  label : String
  description : String
  tools : List String := []
  deriving DecidableEq, Repr

/-- An edge of a template, from one node to another by their numbers. -/
structure TemplateEdge where
  source : Int
  target : Int
  routeKey : Option String := none
  deriving DecidableEq, Repr

structure Template where
  id : String
  name : String
  description : String
  nodes : List TemplateNode
  edges : List TemplateEdge
  deriving DecidableEq, Repr

/-- The edge goes from one of `count` nodes to another. -/
def TemplateEdge.inRange (count : Nat) (e : TemplateEdge) : Bool :=
  0 ≤ e.source && e.source < count && 0 ≤ e.target && e.target < count

/-- Why an edge does not belong into a template of `count` nodes. -/
def TemplateEdge.outOfRange (count : Nat) (e : TemplateEdge) : String :=
  "template edge " ++ e.source.repr ++ " -> " ++ e.target.repr ++ " is out of range for " ++
    count.repr ++ " nodes"

/-- The first edge that does not go between nodes of the template. -/
def Template.strayEdge? (t : Template) : Option TemplateEdge :=
  t.edges.find? fun e => !e.inRange t.nodes.length

def TemplateNode.toJson (n : TemplateNode) : Json := .obj [
  ("kind", .str n.kind.text),
  ("label", .str n.label),
  ("description", .str n.description),
  ("tools", .texts n.tools)]

def TemplateEdge.toJson (e : TemplateEdge) : Json := .obj [
  ("source", .int e.source),
  ("target", .int e.target),
  ("route_key", .ofOption e.routeKey)]

def Template.toJson (t : Template) : Json := .obj [
  ("id", .str t.id),
  ("name", .str t.name),
  ("description", .str t.description),
  ("nodes", .arr (t.nodes.map TemplateNode.toJson)),
  ("edges", .arr (t.edges.map TemplateEdge.toJson))]

def templates : List Template := [
  { id := "research-sprint"
    name := "Research Sprint"
    description := "Research → gather sources → synthesize in one pass."
    nodes := [
      ⟨.agent, "Lead Researcher", "Define scope, questions, and guardrails.", ["web-search"]⟩,
      ⟨.tool, "Source Collector", "Pull relevant sources and surface citations.", ["web-search"]⟩,
      ⟨.agent, "Synthesizer", "Turn sources into a concise narrative.", ["doc-summarizer"]⟩]
    edges := [⟨0, 1, none⟩, ⟨1, 2, none⟩] },
  { id := "support-copilot"
    name := "Support Copilot"
    description := "Triage → resolve → update CRM with follow-ups."
    nodes := [
      ⟨.agent, "Triage Agent", "Classify intent and extract key details.", ["ticketing"]⟩,
      ⟨.agent, "Resolution Agent", "Draft reply and decide next steps.", ["email"]⟩,
      ⟨.tool, "CRM Sync", "Update CRM with ticket status and notes.", ["crm-update"]⟩]
    edges := [⟨0, 1, none⟩, ⟨1, 2, none⟩] },
  { id := "prd-builder"
    name := "Product Requirements"
    description := "Capture intent → draft PRD → share with team."
    nodes := [
      ⟨.agent, "PM Copilot", "Clarify goals, constraints, and success metrics.", ["calendar"]⟩,
      ⟨.agent, "PRD Writer", "Draft a crisp PRD with user stories.", ["notion"]⟩]
    edges := [⟨0, 1, none⟩] }]

def template? (id : String) : Option Template := templates.find? (·.id = id)

def unknownTemplate (id : String) : String := "unknown template: " ++ id

def position (x y : Int) : Option Position := some [("x", .ofInt x), ("y", .ofInt y)]

/-- The place of the node with number `i`: the nodes stand side by side, every second one lower. -/
def placeOf (i : Nat) : Option Position :=
  position (140 + i * 240 : Nat) (140 + i % 2 * 120 : Nat)

/-- The node of an instance that stands for the template's node with number `i`. -/
def TemplateNode.instantiate (id : String) (i : Nat) (n : TemplateNode) : Node where
  id := id
  label := n.label
  description := n.description
  tools := firstSeen n.tools
  roles := Role.canonical [n.kind]
  position := placeOf i

/-- The edge of an instance; `nodeId` gives the identifiers of the nodes by number. -/
def TemplateEdge.instantiate (nodeId : Nat → String) (id : String) (e : TemplateEdge) : Edge where
  id := some id
  source := nodeId e.source.toNat
  target := nodeId e.target.toNat
  routeKey := e.routeKey

/-- An instance of a template; `nodeId` and `edgeId` give the identifiers by number. -/
def Template.instantiate (nodeId edgeId : Nat → String) (t : Template) : Graph :=
  let nodes := t.nodes.mapIdx fun i n => n.instantiate (nodeId i) i
  let edges := t.edges.mapIdx fun i e => e.instantiate nodeId (edgeId i)
  (Graph.mk t.name nodes edges).canonical []

end AgentFlow.Catalog
