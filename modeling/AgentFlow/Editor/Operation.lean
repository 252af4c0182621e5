import AgentFlow.Canonical

/-!
# Editing a graph

The changes that an editor makes to a graph. Every change that succeeds leaves the graph in
canonical form, except that connecting two nodes that are connected already changes nothing at all.
A change fails if it is about a node or an edge that is not there, or would use a node's identifier
twice.
-/

namespace AgentFlow

inductive EditError where
  | unknownNode (id : String)
  | unknownEdge (id : String)
  | nodeIdTaken (id : String)
  deriving DecidableEq, Repr

/-- The fields of a node that an inspector changes; what is not given stays as it is. -/
structure NodeChanges where
  label : Option String := none
  description : Option String := none
  tools : Option (List String) := none
  roles : Option (List Role) := none
  deriving DecidableEq, Repr

inductive Operation where
  | addNode (node : Node)
  | moveNode (id : String) (x y : Coordinate)
  | updateNode (id : String) (changes : NodeChanges)
  | toggleTool (id tool : String)
  | removeNode (id : String)
  | connect (source target id : String)
  | removeEdge (id : String)
  | rerouteEdge (id : String) (source target : Option String)
  | setEdgeKind (id : String) (kind : EdgeKind)
  | setRouteKey (id : String) (key : Option String)
  deriving DecidableEq

def NodeChanges.apply (changes : NodeChanges) (n : Node) : Node :=
  { n with
    label := changes.label.getD n.label
    description := changes.description.getD n.description
    tools := (changes.tools.map firstSeen).getD n.tools
    roles := (changes.roles.map Role.canonical).getD n.roles }

/-- The node with a tool attached, or detached if it was attached. -/
def Node.toggleTool (n : Node) (tool : String) : Node :=
  let tools := if tool ∈ n.tools then n.tools.filter (· ≠ tool) else n.tools ++ [tool]
  { n with tools := firstSeen tools }

namespace Graph

/-- The graph with other nodes and edges, in canonical form. -/
def rebuild (g : Graph) (nodes : List Node) (edges : List Edge) (pinned : List String) : Graph :=
  { g with nodes := nodes, edges := edges }.canonical pinned

/-- The node with an identifier, which has to be there. -/
def requireNode (g : Graph) (id : String) : Except EditError Node :=
  match g.node? id with
  | some n => .ok n
  | none => .error (.unknownNode id)

/-- The edge with an identifier, which has to be there. -/
def requireEdge (g : Graph) (id : String) : Except EditError Edge :=
  match g.edge? id with
  | some e => .ok e
  | none => .error (.unknownEdge id)

/-- The node that an optional identifier stands for has to be there. -/
def requireEnd (g : Graph) : Option String → Except EditError Unit
  | none => .ok ()
  | some id => do
    let _ ← g.requireNode id

/-- The nodes, with a node in the place of those with its identifier. -/
def replaceNode (g : Graph) (n : Node) : List Node :=
  g.nodes.map fun old => if old.id = n.id then n else old

def replaceEdge (g : Graph) (e : Edge) : List Edge :=
  g.edges.map fun old => if old.id = e.id then e else old

def isConnected (g : Graph) (source target : String) : Bool :=
  g.edges.any fun e => e.source = source && e.target = target

def addNode (g : Graph) (n : Node) : Except EditError Graph :=
  if (g.node? n.id).isSome then .error (.nodeIdTaken n.id)
  else .ok (g.rebuild (g.nodes ++ [n]) g.edges [])

def modifyNode (g : Graph) (id : String) (f : Node → Node) : Except EditError Graph := do
  let n ← g.requireNode id
  return g.rebuild (g.replaceNode (f n)) g.edges []

def moveNode (g : Graph) (id : String) (x y : Coordinate) : Except EditError Graph :=
  g.modifyNode id fun n => { n with position := some [("x", x), ("y", y)] }

/-- A node goes, and with it every edge that touches it. -/
def removeNode (g : Graph) (id : String) : Except EditError Graph := do
  let _ ← g.requireNode id
  return g.rebuild (g.nodes.filter (·.id ≠ id))
    (g.edges.filter fun e => e.source ≠ id && e.target ≠ id) []

/-- An edge between two nodes is appended, unless there is one already. -/
def connect (g : Graph) (source target id : String) : Except EditError Graph := do
  let _ ← g.requireNode source
  let _ ← g.requireNode target
  -- the graph stays as it is, also with a single edge that was marked conditional
  if g.isConnected source target then return g
  else
    let e : Edge := { id := some id, source := source, target := target }
    return g.rebuild g.nodes (g.edges ++ [e]) []

def removeEdge (g : Graph) (id : String) : Except EditError Graph := do
  let _ ← g.requireEdge id
  return g.rebuild g.nodes (g.edges.filter (·.id ≠ some id)) []

/-- An edge gets other ends; an end that is not given stays. -/
def rerouteEdge (g : Graph) (id : String) (source target : Option String) :
    Except EditError Graph := do
  let e ← g.requireEdge id
  g.requireEnd source
  g.requireEnd target
  let moved := { e with source := source.getD e.source, target := target.getD e.target }
  return g.rebuild g.nodes (g.replaceEdge moved) []

/-- An edge is marked normal or conditional. As kinds follow from the topology, this matters only
for marking the single edge out of a node conditional, and only until the next change. -/
def setEdgeKind (g : Graph) (id : String) (kind : EdgeKind) : Except EditError Graph := do
  let e ← g.requireEdge id
  let pinned := if kind = .conditional then [id] else []
  return g.rebuild g.nodes (g.replaceEdge { e with kind := kind }) pinned

/-- An edge gets the slug of a text as its route key, or loses its key if that is empty. -/
def setRouteKey (g : Graph) (id : String) (key : Option String) : Except EditError Graph := do
  let e ← g.requireEdge id
  let slug := Text.slug (key.getD "")
  -- a conditional edge stays so, also as the only one out of its source
  let pinned := if e.isConditional then [id] else []
  let keyed := { e with routeKey := if slug = "" then none else some slug }
  return g.rebuild g.nodes (g.replaceEdge keyed) pinned

end Graph

/-- The graph after a change. -/
def Operation.apply (op : Operation) (g : Graph) : Except EditError Graph :=
  match op with
  | .addNode n => g.addNode n
  | .moveNode id x y => g.moveNode id x y
  | .updateNode id changes => g.modifyNode id changes.apply
  | .toggleTool id tool => g.modifyNode id (·.toggleTool tool)
  | .removeNode id => g.removeNode id
  | .connect source target id => g.connect source target id
  | .removeEdge id => g.removeEdge id
  | .rerouteEdge id source target => g.rerouteEdge id source target
  | .setEdgeKind id kind => g.setEdgeKind id kind
  | .setRouteKey id key => g.setRouteKey id key

/-- The graph after a change, or the graph itself if the change fails. -/
def Operation.attempt (op : Operation) (g : Graph) : Graph :=
  match op.apply g with
  | .ok g' => g'
  | .error _ => g

end AgentFlow
