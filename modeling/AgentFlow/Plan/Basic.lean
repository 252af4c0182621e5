import AgentFlow.Plan.Keys
import AgentFlow.Plan.Order
import AgentFlow.Reachability
import AgentFlow.Routing

/-!
# Plans

A plan lays out what every target language has to emit: the nodes in order under their keys, the
entry, the plain edges, a routing table for every node with conditional edges, the nodes where the
flow ends, and what cannot be reached. A graph has a plan if its identifiers are distinct, its edges
end at its nodes, and its nodes are agents.
-/

namespace AgentFlow

/-- A node under its key. -/
structure PlannedNode where
  key : String
  node : Node
  deriving DecidableEq

/-- A row of a routing table: a route key and the key of the node that it leads to. -/
structure Route where
  key : String
  target : String
  deriving DecidableEq, Repr

/-- The routing table of a node; `renamed` holds the route keys that were taken already when their
edge came, in order. -/
structure Branch where
  source : String
  routes : List Route
  renamed : List String
  deriving DecidableEq, Repr

/-- What every target language has to emit. -/
structure Plan where
  nodes : List PlannedNode
  entry : Option String
  entryIsFallback : Bool
  edges : List (String × String)
  branches : List Branch
  sinks : List String
  unreachable : List String
  deriving DecidableEq

inductive PlanError where
  | duplicateIds (ids : List String)
  | missingEnd (edge : Edge)
  | notAgent (node : Node)
  deriving DecidableEq

def PlanError.message : PlanError → String
  | .duplicateIds ids => "duplicate node ids: " ++ ", ".intercalate ids
  | .missingEnd e =>
    let id := e.id.getD ""
    "edge " ++ (if id = "" then "<unnamed>" else id) ++ " references a missing node (" ++
      e.source ++ " -> " ++ e.target ++ ")"
  | .notAgent n => "node " ++ n.id ++ " has no agent role; run role inference first"

structure Wire where
  source : String
  target : String
  isConditional : Bool
  routeKey : String
  deriving DecidableEq, Repr

namespace Plan

open Text

/-- The edge with the keys of its ends, if both are in the table. -/
def wire (table : List (String × String)) (e : Edge) : Except PlanError Wire :=
  match table.lookup e.source, table.lookup e.target with
  | some source, some target => .ok ⟨source, target, e.isConditional, Routing.explicitKey e⟩
  | _, _ => .error (.missingEnd e)

/-- The edges with the keys of their ends; the first edge without two ends is the error. -/
def wireAll (table : List (String × String)) : List Edge → Except PlanError (List Wire)
  | [] => .ok []
  | e :: rest => do
    let w ← wire table e
    let ws ← wireAll table rest
    return w :: ws

/-- The branch with one more route. A key that is taken gets a number. -/
def Branch.add (b : Branch) (key target : String) : Branch :=
  let taken := b.routes.map Route.key
  { b with
    routes := b.routes ++ [⟨fresh "_" key taken, target⟩]
    renamed := if key ∈ taken then b.renamed ++ [key] else b.renamed }

/-- The route key of a wire: its own, or else the key of its target. -/
def routeKey (w : Wire) : String := if w.routeKey = "" then w.target else w.routeKey

/-- The branch at a node with the given conditional wires. -/
def branchOf (source : String) (wires : List Wire) : Branch :=
  wires.foldl (fun b w => Branch.add b (routeKey w) w.target) ⟨source, [], []⟩

def wiresFrom (wires : List Wire) (source : String) : List Wire := wires.filter (·.source = source)

def plainEdges (wires : List Wire) : List (String × String) :=
  (wires.filter fun w => !w.isConditional).map fun w => (w.source, w.target)

def branch? (wires : List Wire) (source : String) : Option Branch :=
  match (wiresFrom wires source).filter (·.isConditional) with
  | [] => none
  | conditional => some (branchOf source conditional)

/-- The key of the entry, and whether it is a fallback: the node that was asked for, else the first
that no edge leads into, else the first of all. -/
def entryKey (nodes : List PlannedNode) (edges : List Edge) (entryId : Option String) :
    Option String × Bool :=
  match nodes.find? fun p => some p.node.id = entryId with
  | some p => (some p.key, false)
  | none =>
    -- an entry that is asked for but is not there is passed over
    match nodes.find? fun p => edges.all (·.target ≠ p.node.id) with
    | some p => (some p.key, false)
    | none =>
      match nodes with
      -- every node has an edge into it
      | p :: _ => (some p.key, true)
      | [] => (none, false)

def arrows (edges : List (String × String)) (branches : List Branch) : List (String × String) :=
  edges ++ branches.flatMap fun b => b.routes.map fun r => (b.source, r.target)

/-- The keys that cannot be reached from the entry; none if there is no entry. -/
def unreachableKeys (keys : List String) (entry : Option String)
    (arrows : List (String × String)) : List String :=
  match entry with
  | none => []
  | some start =>
    let reached := reachable arrows start
    keys.filter (· ∉ reached)

/-- The plan of nodes under their keys, given in input order and in emission order, with the wires
between them. -/
def assemble (given planned : List PlannedNode) (edges : List Edge) (wires : List Wire)
    (entryId : Option String) : Plan :=
  let keys := planned.map PlannedNode.key
  let (entry, isFallback) := entryKey given edges entryId
  -- plain edges come source by source, in emission order
  let plain := plainEdges (keys.flatMap (wiresFrom wires))
  let branches := keys.filterMap (branch? wires)
  { nodes := planned
    entry := entry
    entryIsFallback := isFallback
    edges := plain
    branches := branches
    sinks := keys.filter fun key => (wiresFrom wires key).isEmpty
    unreachable := unreachableKeys keys entry (arrows plain branches) }

def checkDistinct (nodes : List Node) : Except PlanError Unit :=
  match repeated (nodeIds nodes) with
  | [] => .ok ()
  | duplicates => .error (.duplicateIds (duplicates.map (·.1)))

def checkAgents (nodes : List Node) : Except PlanError Unit :=
  match nodes.find? fun n => .agent ∉ n.roles with
  | none => .ok ()
  | some n => .error (.notAgent n)

def withKeys (nodes : List Node) : List PlannedNode :=
  (assignKeys nodes).zipWith PlannedNode.mk nodes

end Plan

open Plan in
def plan (nodes : List Node) (edges : List Edge) (entryId : Option String) :
    Except PlanError Plan := do
  checkDistinct nodes
  -- the order of the checks decides which error a graph with several gets
  let wires ← wireAll (keyTable nodes) edges
  checkAgents nodes
  let given := withKeys nodes
  let planned := emissionOrder (fun p => p.node.id) edges given
  return assemble given planned edges wires entryId

end AgentFlow
