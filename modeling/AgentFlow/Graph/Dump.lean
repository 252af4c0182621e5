import AgentFlow.Graph.Basic
import AgentFlow.Json.Nesting

/-!
# Graphs as JSON

Every field is written, also those that hold nothing. A dump fails if the metadata of a node is
nested too deeply.
-/

namespace AgentFlow

def Coordinate.toJson : Coordinate → Json
  | .double x => .float x
  | .beyond i => .int i

def positionJson : Option Position → Json
  | none => .null
  | some place => .obj (place.map fun (name, c) => (name, c.toJson))

def metadataJson : Option (List (String × Json)) → Json
  | none => .null
  | some fields => .obj fields

def Node.toJson (n : Node) : Json := .obj [
  ("id", .str n.id),
  ("label", .str n.label),
  ("description", .str n.description),
  ("tools", .texts n.tools),
  ("roles", .texts (n.roles.map Role.text)),
  ("position", positionJson n.position),
  ("metadata", metadataJson n.metadata)]

def Edge.toJson (e : Edge) : Json := .obj [
  ("id", .ofOption e.id),
  ("source", .str e.source),
  ("target", .str e.target),
  ("kind", .str e.kind.text),
  ("route_key", .ofOption e.routeKey)]

def Graph.toJson (g : Graph) : Json := .obj [
  ("name", .str g.name),
  ("nodes", .arr (g.nodes.map Node.toJson)),
  ("edges", .arr (g.edges.map Edge.toJson))]

/-! ### Dumps -/

inductive DumpError where
  | tooDeep
  deriving DecidableEq, Repr

def DumpError.message : DumpError → String
  | .tooDeep => "Error serializing to JSON: ValueError: Maximum serialization depth exceeded"

/-- How deep the values in the metadata of a node may be nested. -/
def metadataNesting : Nat := 255

/-- The metadata of the node is not nested too deeply. -/
def Node.isDumpable (n : Node) : Bool :=
  (n.metadata.getD []).all fun (_, v) => v.nesting ≤ metadataNesting

def Node.dump (n : Node) : Except DumpError Json :=
  if n.isDumpable then .ok n.toJson else .error .tooDeep

def Graph.dump (g : Graph) : Except DumpError Json :=
  if g.nodes.all Node.isDumpable then .ok g.toJson else .error .tooDeep

end AgentFlow
