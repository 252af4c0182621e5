import AgentFlow.Graph.Basic
import AgentFlow.Text.Fresh
import AgentFlow.Text.Slug

/-!
# Routing

An edge is conditional exactly if its source has several outgoing edges, and a conditional edge
needs a route key by which its source can choose it. Routing recomputes both from the topology:
keys that are there are kept, and a missing key is made from the label of the target, without taking
a key that another edge of the source has.
-/

namespace AgentFlow.Routing

open Text

def idLength : Nat := 6

/-- The key of an edge that has none: the slug of its target's label, else the start of the edge's
identifier, else its place. -/
def defaultKey (label edgeId : Option String) (place : Int) : String :=
  let key := slug (label.getD "")
  if key ≠ "" then key
  else
    let id := edgeId.getD ""
    -- the key is not trimmed, though the identifier may be cut off right behind a blank
    if id ≠ "" then "route_" ++ String.ofList (id.toList.take idLength)
    else "route_" ++ place.repr

/-- The key that an edge has, without blanks around it; empty if it has none. -/
def explicitKey (e : Edge) : String := trim (e.routeKey.getD "")

/-- An edge is conditional after routing if its source has several outgoing edges, or if it is
pinned, conditional already, and between two nodes of the graph. -/
def isBranching (nodes : List Node) (edges : List Edge) (pinned : List String) (e : Edge) : Bool :=
  1 < outDegree edges e.source ||
    (e.id.any (· ∈ pinned) && e.isConditional &&
      e.source ∈ nodeIds nodes && e.target ∈ nodeIds nodes)

def plainEdge (e : Edge) : Edge := { e with kind := .normal, routeKey := none }

def keyedEdge (e : Edge) (key : String) : Edge :=
  { e with kind := .conditional, routeKey := some key }

/-- The source and the key of every conditional edge that has a key. -/
def reservedKeys (branching : Edge → Bool) (edges : List Edge) : List (String × String) :=
  (edges.filter fun e => branching e && explicitKey e ≠ "").map fun e => (e.source, explicitKey e)

def keysAt (taken : List (String × String)) (source : String) : List String :=
  (taken.filter (·.1 = source)).map (·.2)

/-- The routed edges, in order: `branching` decides which edges are conditional, `label?` is the
label of a node, `place` is the number of edges before these, and `taken` holds the keys that are
not free, each with its source. -/
def route (branching : Edge → Bool) (label? : String → Option String) :
    (place : Nat) → (taken : List (String × String)) → List Edge → List Edge
  | _, _, [] => []
  | place, taken, e :: rest =>
    if branching e then
      let key := explicitKey e
      if key ≠ "" then keyedEdge e key :: route branching label? (place + 1) taken rest
      else
        -- places count from one in keys
        let key := fresh "_" (defaultKey (label? e.target) e.id (place + 1)) (keysAt taken e.source)
        keyedEdge e key :: route branching label? (place + 1) ((e.source, key) :: taken) rest
    else plainEdge e :: route branching label? (place + 1) taken rest

/-- The edges of a graph with their kinds and route keys recomputed. The edges named by `pinned`
stay conditional even where their source has no other edge. -/
def normalize (nodes : List Node) (edges : List Edge) (pinned : List String) : List Edge :=
  let branching := isBranching nodes edges pinned
  -- of several nodes with one identifier the last one counts
  let label? := fun id => (lastNode? nodes id).map (·.label)
  route branching label? 0 (reservedKeys branching edges) edges

end AgentFlow.Routing
