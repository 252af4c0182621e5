import AgentFlow.Editor.Operation
import AgentFlow.Proofs.Graph.Basic
import AgentFlow.Proofs.Outcomes

/-!
# What each change does

For every change of a graph, when it succeeds and which graph it leaves: one `_eq_ok_iff` for each.
That a node is there is said by its identifier being one of the graph's.
-/

namespace AgentFlow.Graph

variable {g g' : Graph} {id : String}

/-- Canonical form replaces the nodes and the edges and leaves the rest. -/
theorem rebuild_eq (g : Graph) (nodes : List Node) (edges : List Edge) (pinned : List String) :
    g.rebuild nodes edges pinned =
      { g with
        nodes := inferRoles nodes (Routing.normalize nodes edges pinned)
        edges := Routing.normalize nodes edges pinned } := rfl

/-! ## What has to be there -/

/-- A node that has to be there is the one that is found. -/
theorem requireNode_eq_ok_iff {n : Node} : g.requireNode id = .ok n ↔ g.node? id = some n := by
  rw [requireNode]
  split <;> simp_all

/-- An edge that has to be there is the one that is found. -/
theorem requireEdge_eq_ok_iff {e : Edge} : g.requireEdge id = .ok e ↔ g.edge? id = some e := by
  rw [requireEdge]
  split <;> simp_all

/-- A node is found exactly if its identifier is in use. -/
theorem exists_node?_iff : (∃ n, g.node? id = some n) ↔ id ∈ nodeIds g.nodes := by
  rw [← Option.ne_none_iff_exists', ne_eq, node?_eq_none_iff, Decidable.not_not]

/-- An end has to be a node, if it is given. -/
theorem requireEnd_eq_ok_iff {id? : Option String} :
    g.requireEnd id? = .ok () ↔ ∀ id, id? = some id → id ∈ nodeIds g.nodes := by
  cases id? with
  | none => simp [requireEnd]
  | some id =>
    have hbind : g.requireEnd (some id) = .ok () ↔ ∃ n, g.requireNode id = .ok n := by
      refine bind_eq_ok_iff.trans (exists_congr fun n => and_iff_left rfl)
    simp [hbind, requireNode_eq_ok_iff, exists_node?_iff]

/-! ## Changes of nodes -/

/-- A node is added at the end, unless its identifier is in use. -/
theorem addNode_eq_ok_iff {n : Node} : g.addNode n = .ok g' ↔
    n.id ∉ nodeIds g.nodes ∧ g' = g.rebuild (g.nodes ++ [n]) g.edges [] := by
  rw [addNode, ← node?_eq_none_iff, ← Option.not_isSome_iff_eq_none]
  split
  · next h => simp [h]
  · next h => simp [h, eq_comm]

/-- A node is changed if it is there. -/
theorem modifyNode_eq_ok_iff {f : Node → Node} : g.modifyNode id f = .ok g' ↔
    ∃ n, g.node? id = some n ∧ g' = g.rebuild (g.replaceNode (f n)) g.edges [] := by
  refine bind_eq_ok_iff.trans (exists_congr fun n => ?_)
  rw [requireNode_eq_ok_iff, pure_eq_ok_iff]

/-- A node is removed with all edges that start or end at it. -/
theorem removeNode_eq_ok_iff : g.removeNode id = .ok g' ↔
    id ∈ nodeIds g.nodes ∧
      g' = g.rebuild (g.nodes.filter (·.id ≠ id))
        (g.edges.filter fun e => e.source ≠ id && e.target ≠ id) [] := by
  rw [← exists_node?_iff, ← exists_and_right]
  refine bind_eq_ok_iff.trans (exists_congr fun n => ?_)
  rw [requireNode_eq_ok_iff, pure_eq_ok_iff]

/-! ## Changes of edges -/

/-- Nodes are connected once: a connection that is there already is left as it is. -/
theorem connect_eq_ok_iff {source target : String} : g.connect source target id = .ok g' ↔
    source ∈ nodeIds g.nodes ∧ target ∈ nodeIds g.nodes ∧
      g' = if g.isConnected source target then g
        else g.rebuild g.nodes (g.edges ++ [{ id := some id, source := source, target := target }])
          [] := by
  rw [← exists_node?_iff, ← exists_node?_iff, ← exists_and_right]
  refine bind_eq_ok_iff.trans (exists_congr fun n => ?_)
  rw [requireNode_eq_ok_iff, ← exists_and_right]
  refine and_congr_right fun _ => bind_eq_ok_iff.trans (exists_congr fun m => ?_)
  rw [requireNode_eq_ok_iff]
  split <;> rw [pure_eq_ok_iff]

/-- An edge is removed if it is there. -/
theorem removeEdge_eq_ok_iff : g.removeEdge id = .ok g' ↔
    (∃ e, g.edge? id = some e) ∧
      g' = g.rebuild g.nodes (g.edges.filter (·.id ≠ some id)) [] := by
  rw [← exists_and_right]
  refine bind_eq_ok_iff.trans (exists_congr fun e => ?_)
  rw [requireEdge_eq_ok_iff, pure_eq_ok_iff]

/-- An edge with other ends, where they are given. -/
def movedEdge (e : Edge) (source target : Option String) : Edge :=
  { e with source := source.getD e.source, target := target.getD e.target }

/-- An edge gets the ends that are given, if these are nodes; whether an edge is there already is
not asked. -/
theorem rerouteEdge_eq_ok_iff {source target : Option String} :
    g.rerouteEdge id source target = .ok g' ↔
      ∃ e, g.edge? id = some e ∧ (∀ s, source = some s → s ∈ nodeIds g.nodes) ∧
        (∀ t, target = some t → t ∈ nodeIds g.nodes) ∧
        g' = g.rebuild g.nodes (g.replaceEdge (movedEdge e source target)) [] := by
  refine bind_eq_ok_iff.trans (exists_congr fun e => ?_)
  rw [requireEdge_eq_ok_iff, ← requireEnd_eq_ok_iff, ← requireEnd_eq_ok_iff]
  refine and_congr_right fun _ => check_eq_ok_iff.trans ?_
  refine and_congr_right fun _ => check_eq_ok_iff.trans ?_
  rw [pure_eq_ok_iff]
  rfl

/-- An edge that is made conditional is pinned. -/
theorem setEdgeKind_eq_ok_iff {kind : EdgeKind} : g.setEdgeKind id kind = .ok g' ↔
    ∃ e, g.edge? id = some e ∧
      g' = g.rebuild g.nodes (g.replaceEdge { e with kind := kind })
        (if kind = .conditional then [id] else []) := by
  refine bind_eq_ok_iff.trans (exists_congr fun e => ?_)
  rw [requireEdge_eq_ok_iff, pure_eq_ok_iff]

/-- The route key that a text is made into: its slug, if that is not empty. -/
def slugKey (key : Option String) : Option String :=
  let slug := Text.slug (key.getD "")
  if slug = "" then none else some slug

/-- A key is set as its slug, and the edge is pinned if it is conditional. -/
theorem setRouteKey_eq_ok_iff {key : Option String} : g.setRouteKey id key = .ok g' ↔
    ∃ e, g.edge? id = some e ∧
      g' = g.rebuild g.nodes (g.replaceEdge { e with routeKey := slugKey key })
        (if e.isConditional then [id] else []) := by
  refine bind_eq_ok_iff.trans (exists_congr fun e => ?_)
  rw [requireEdge_eq_ok_iff, pure_eq_ok_iff]
  rfl

end AgentFlow.Graph
