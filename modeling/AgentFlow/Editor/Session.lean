import AgentFlow.Editor.Operation
import AgentFlow.Identifier
import AgentFlow.Schema.Graph

/-!
# Editing sessions

A session is a graph under edit and the identifiers that have been given out. Its requests come from
outside: identifiers may be missing, and roles and kinds are whatever was sent. An identifier is
given out only where one is needed, and a request that fails leaves the graph as it was.
-/

namespace AgentFlow

inductive Request where
  | createNode (role : Json) (index : Int) (id : Option String)
  | addNode (node : Json)
  | moveNode (id : String) (x y : Coordinate)
  | updateNode (id : String) (label description : Option String) (tools : Option (List String))
      (roles : Option Json)
  | toggleTool (id tool : String)
  | removeNode (id : String)
  | connect (source target : String) (id : Option String)
  | removeEdge (id : String)
  | rerouteEdge (id : String) (source target : Option String)
  | setEdgeKind (id : String) (kind : Json)
  | setRouteKey (id : String) (key : Option String)

inductive RequestError where
  | edit (reason : EditError)
  | invalidRole (value : Json)
  | invalidKind (value : Json)
  | faulty (faults : List Schema.Fault)
  | unlistable (kind : String)
  deriving DecidableEq

/-- Reading that stops at any fault. -/
def Schema.Outcome.orError {α : Type} : Outcome α → Except RequestError α
  | .ok a => .ok a
  | .faults first more => .error (.faulty (first :: more))
  | .unlistable kind => .error (.unlistable kind)

def newNodeDescription : String := "Describe what this node should do."

/-- The place of a node that is made when there are `index` others. -/
def newNodePlace (index : Int) : Schema.Outcome Position :=
  Schema.readFields (Schema.coordinate .program)
    [("x", .int (140 + index * 30)), ("y", .int (120 + index * 40))]

/-- A node as the palette makes it. -/
def newNode (role : Role) (index : Int) (id : String) : Except RequestError Node := do
  let place ← ((newNodePlace index).under (.field "position")).orError
  return {
    id := id
    label := role.title ++ " node"
    description := newNodeDescription
    roles := Role.canonical [role]
    position := some place }

/-- The graph under edit, and the identifiers that have been given out. -/
structure Session where
  graph : Graph
  supply : Supply := {}

namespace Session

def perform (s : Session) (op : Operation) : Except RequestError Unit × Session :=
  match op.apply s.graph with
  | .ok g => (.ok (), { s with graph := g })
  | .error reason => (.error (.edit reason), s)

def fail (s : Session) (reason : RequestError) : Except RequestError Unit × Session :=
  (.error reason, s)

def roleOf (v : Json) : Except RequestError Role :=
  match Schema.role? v with
  | some role => .ok role
  | none => .error (.invalidRole v)

def rolesOf (v : Json) : Except RequestError (List Role) :=
  match Schema.parts v with
  | .error kind => .error (.unlistable kind)
  | .ok items =>
    match Schema.readRoles items with
    | .ok roles => .ok roles
    | .error culprit => .error (.invalidRole culprit)

def kindOf (v : Json) : Except RequestError EdgeKind :=
  match v with
  | .str s =>
    match EdgeKind.ofText? s with
    | some kind => .ok kind
    | none => .error (.invalidKind v)
  | _ => .error (.invalidKind v)

def createNode (s : Session) (role : Json) (index : Int) (id : Option String) :
    Except RequestError Unit × Session :=
  match roleOf role with
  | .error reason => s.fail reason
  | .ok role =>
    let (id, supply) := s.supply.nodeId id
    -- the identifier is used up even if the node cannot be made
    let s := { s with supply := supply }
    match newNode role index id with
    | .error reason => s.fail reason
    | .ok n => s.perform (.addNode n)

/-- A node is changed. That the node is there is checked before its new roles are. -/
def updateNode (s : Session) (id : String) (label description : Option String)
    (tools : Option (List String)) (roles : Option Json) : Except RequestError Unit × Session :=
  match s.graph.requireNode id, roles.mapM rolesOf with
  | .error reason, _ => s.fail (.edit reason)
  | .ok _, .error reason => s.fail reason
  | .ok _, .ok roles => s.perform (.updateNode id ⟨label, description, tools, roles⟩)

/-- Two nodes are connected. An identifier is needed only if both are there and there is no such
edge. -/
def connect (s : Session) (source target : String) (id : Option String) :
    Except RequestError Unit × Session :=
  let known := (s.graph.node? source).isSome && (s.graph.node? target).isSome
  if known && !s.graph.isConnected source target then
    let (id, supply) := s.supply.edgeId id
    { s with supply := supply }.perform (.connect source target id)
  else s.perform (.connect source target (id.getD ""))

/-- An edge is marked. That the edge is there is checked before the kind is. -/
def setEdgeKind (s : Session) (id : String) (kind : Json) : Except RequestError Unit × Session :=
  match s.graph.requireEdge id, kindOf kind with
  | .error reason, _ => s.fail (.edit reason)
  | .ok _, .error reason => s.fail reason
  | .ok _, .ok kind => s.perform (.setEdgeKind id kind)

/-- The session after a request, and whether the request was met. -/
def handle (s : Session) : Request → Except RequestError Unit × Session
  | .createNode role index id => s.createNode role index id
  | .addNode v =>
    match (Schema.node .program v).orError with
    | .ok n => s.perform (.addNode n)
    | .error reason => s.fail reason
  | .moveNode id x y => s.perform (.moveNode id x y)
  | .updateNode id label description tools roles => s.updateNode id label description tools roles
  | .toggleTool id tool => s.perform (.toggleTool id tool)
  | .removeNode id => s.perform (.removeNode id)
  | .connect source target id => s.connect source target id
  | .removeEdge id => s.perform (.removeEdge id)
  | .rerouteEdge id source target => s.perform (.rerouteEdge id source target)
  | .setEdgeKind id kind => s.setEdgeKind id kind
  | .setRouteKey id key => s.perform (.setRouteKey id key)

end Session

def EditError.message : EditError → String
  | .unknownNode id | .unknownEdge id => Text.quoted id
  | .nodeIdTaken id => "node id already in graph: " ++ id

end AgentFlow
