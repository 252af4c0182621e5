import AgentFlow.FirstSeen
import AgentFlow.Graph.Role
import AgentFlow.Json.Basic

/-!
# Flow graphs

A flow graph has nodes, the units of work, and directed edges between them, along which control
passes. Nodes and edges refer to each other by identifiers; nothing here asks that an identifier is
used once or that an edge ends at a node.
-/

namespace AgentFlow

open Numeral (Binary64)

/-- How control passes along an edge: always, or if the source chooses the edge's route. -/
inductive EdgeKind where
  | normal
  | conditional
  deriving DecidableEq, Repr

namespace EdgeKind

def text : EdgeKind → String
  | .normal => "normal"
  | .conditional => "conditional"

def ofText? (s : String) : Option EdgeKind :=
  [EdgeKind.normal, .conditional].find? fun kind => kind.text == s

end EdgeKind

/-- A coordinate on the canvas: a double, or a whole number beyond the greatest double. -/
inductive Coordinate where
  | double (x : Binary64)
  | beyond (i : Int)
  deriving DecidableEq, Repr

def Coordinate.ofInt (i : Int) : Coordinate :=
  let x := Binary64.ofInt i
  if x.isFinite then .double x else .beyond i

/-- A place on the canvas: its coordinates by name. -/
abbrev Position := List (String × Coordinate)

/-- A unit of work. The position and the metadata belong to the canvas and mean nothing here. -/
structure Node where
  id : String
  label : String := ""
  description : String := ""
  tools : List String := []
  roles : List Role := []
  position : Option Position := none
  metadata : Option (List (String × Json)) := none
  deriving DecidableEq

/-- A transition from one node to another. -/
structure Edge where
  id : Option String := none
  source : String
  target : String
  kind : EdgeKind := .normal
  routeKey : Option String := none
  deriving DecidableEq, Repr

def defaultFlowName : String := "Agent Flow"

structure Graph where
  name : String := defaultFlowName
  nodes : List Node := []
  edges : List Edge := []
  deriving DecidableEq

/-- The node's label, or its identifier if it has none. -/
def Node.name (n : Node) : String := if n.label = "" then n.id else n.label

def Edge.isConditional (e : Edge) : Bool := e.kind = .conditional

/-- The node of a graph with an identifier; the first one, should there be more. -/
def Graph.node? (g : Graph) (id : String) : Option Node := g.nodes.find? (·.id = id)

/-- The edge of a graph with an identifier; the first one, should there be more. -/
def Graph.edge? (g : Graph) (id : String) : Option Edge := g.edges.find? (·.id = some id)

def nodeIds (nodes : List Node) : List String := nodes.map (·.id)

/-- The node that an identifier stands for; the last one, should there be more. -/
def lastNode? (nodes : List Node) (id : String) : Option Node := nodes.reverse.find? (·.id = id)

def outDegree (edges : List Edge) (id : String) : Nat := edges.countP (·.source = id)

/-- The number of edges out of each source, in the order of the first edges. -/
def outDegrees (edges : List Edge) : List (String × Nat) := tally (edges.map (·.source))

/-- The number of edges into each target, in the order of the first edges. -/
def inDegrees (edges : List Edge) : List (String × Nat) := tally (edges.map (·.target))

def entryCandidates (nodes : List Node) (edges : List Edge) : List Node :=
  nodes.filter fun n => edges.all (·.target ≠ n.id)

end AgentFlow
