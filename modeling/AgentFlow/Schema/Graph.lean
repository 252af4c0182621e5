import AgentFlow.Graph.Basic
import AgentFlow.Schema.Reader

/-!
# Reading graphs

Nodes, edges and graphs from JSON values. The tools of a node lose their repetitions, and its roles
come into the canonical order.
-/

namespace AgentFlow.Schema

def role? : Json → Option Role
  | .str s => Role.ofText? s
  | _ => none

def notARole (v : Json) : String := v.display ++ " is not a valid Role"

/-- The roles that values name; the first value that names none is the error. -/
def readRoles : List Json → Except Json (List Role)
  | [] => .ok []
  | v :: rest => do
    match role? v with
    | none => throw v
    | some role => return role :: (← readRoles rest)

/-- A set of roles; null is the empty set. -/
def roles : Reader (List Role)
  | .null => .ok []
  | v =>
    -- the value is looked into before it is known to be a list
    match parts v.merged with
    | .error kind => .unlistable kind
    | .ok items =>
      match readRoles items with
      | .ok roles => .ok (Role.canonical roles)
      | .error culprit => .fault (.refused (notARole culprit))

/-- One role of a record's field. -/
def role : Reader Role := choice (Role.order.map fun role => (role.text, role))

def edgeKind : Reader EdgeKind :=
  choice ([EdgeKind.normal, .conditional].map fun kind => (kind.text, kind))

def coordinate (origin : Origin) : Reader Coordinate := fun v => (number origin v).map .double

def node (origin : Origin) : Reader Node :=
  record "FlowNode" fun fields =>
    Node.mk <$> required fields "id" text
      <*> optional fields "label" text ""
      <*> optional fields "description" text ""
      <*> (optional fields "tools" (listOf text) []).map firstSeen
      <*> optional fields "roles" roles []
      <*> optional fields "position" (nullable (objectOf (coordinate origin))) none
      <*> optional fields "metadata" (nullable anyObject) none

def edge : Reader Edge :=
  record "FlowEdge" fun fields =>
    Edge.mk <$> optional fields "id" (nullable text) none
      <*> required fields "source" text
      <*> required fields "target" text
      <*> optional fields "kind" edgeKind .normal
      <*> optional fields "route_key" (nullable text) none

def graph (origin : Origin) : Reader Graph :=
  record "FlowGraph" fun fields =>
    Graph.mk <$> optional fields "name" text defaultFlowName
      <*> optional fields "nodes" (listOf (node origin)) []
      <*> optional fields "edges" (listOf edge) []

end AgentFlow.Schema
