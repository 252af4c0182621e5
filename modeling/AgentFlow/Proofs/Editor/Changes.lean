import AgentFlow.Proofs.Editor.Steps
import AgentFlow.Proofs.Lists

/-!
# What a change does to single nodes and edges

A change is given for a whole graph, but where identifiers are distinct it is one for single nodes
and edges: it keeps or drops each, edits those that it keeps, and may append one. All changes are
described at once by `Operation.apply_eq_ok_iff`: when a change succeeds, and what it hands over to
be brought into canonical form.
-/

namespace AgentFlow

def edgeIds (edges : List Edge) : List String := edges.filterMap (·.id)

@[simp] theorem mem_edgeIds {edges : List Edge} {id : String} :
    id ∈ edgeIds edges ↔ ∃ e ∈ edges, e.id = some id := List.mem_filterMap

/-- The identifiers of lists of edges come one list after the other. -/
theorem edgeIds_append (es es' : List Edge) : edgeIds (es ++ es') = edgeIds es ++ edgeIds es' :=
  List.filterMap_append

/-- The identifiers of edges that are related by their identifiers. -/
theorem edgeIds_congr {es es' : List Edge} (h : es'.map (·.id) = es.map (·.id)) :
    edgeIds es' = edgeIds es := by
  have hids : ∀ es : List Edge, edgeIds es = (es.map (·.id)).filterMap id := fun es => by
    rw [List.filterMap_map]
    rfl
  rw [hids, h, ← hids]

/-- Where identifiers are distinct, an edge is the only one with its identifier. -/
theorem exists_split_of_mem {edges : List Edge} {e : Edge} {id : String}
    (hedges : (edgeIds edges).Nodup) (he : e ∈ edges) (hid : e.id = some id) :
    ∃ before after, edges = before ++ e :: after ∧ id ∉ edgeIds (before ++ after) := by
  obtain ⟨before, after, rfl⟩ := List.append_of_mem he
  refine ⟨before, after, rfl, ?_⟩
  -- The identifier is in the middle of those of all edges, which are distinct.
  have hmiddle : edgeIds (before ++ e :: after) = edgeIds before ++ id :: edgeIds after := by
    rw [edgeIds_append, edgeIds, edgeIds, List.filterMap_cons_some hid]
    rfl
  rw [hmiddle, List.nodup_middle, List.nodup_cons] at hedges
  rw [edgeIds_append]
  exact hedges.1

/-- No identifier is used by two nodes or by two edges. -/
structure Graph.IdsDistinct (g : Graph) : Prop where
  nodes : (nodeIds g.nodes).Nodup
  edges : (edgeIds g.edges).Nodup

namespace Operation

/-! ## Nodes -/

def keepsNode : Operation → Node → Bool
  | .removeNode id => fun n => n.id ≠ id
  | _ => fun _ => true

def editNode : Operation → Node → Node
  | .moveNode id x y => fun n =>
    if n.id = id then { n with position := some [("x", x), ("y", y)] } else n
  | .updateNode id changes => fun n => if n.id = id then changes.apply n else n
  | .toggleTool id tool => fun n => if n.id = id then n.toggleTool tool else n
  | _ => fun n => n

def newNodes : Operation → List Node
  | .addNode n => [n]
  | _ => []

/-- The nodes after a change, before they are brought into canonical form. -/
def nodesAfter (op : Operation) (nodes : List Node) : List Node :=
  (nodes.filter op.keepsNode).map op.editNode ++ op.newNodes

/-- A node keeps its identifier. -/
@[simp] theorem id_editNode (op : Operation) (n : Node) : (op.editNode n).id = n.id := by
  cases op <;> simp only [editNode] <;> split <;> rfl

/-! ## Edges -/

def keepsEdge : Operation → Edge → Bool
  | .removeNode id => fun e => e.source ≠ id && e.target ≠ id
  | .removeEdge id => fun e => e.id ≠ some id
  | _ => fun _ => true

def editEdge : Operation → Edge → Edge
  | .rerouteEdge id source target => fun e =>
    if e.id = some id then Graph.movedEdge e source target else e
  | .setEdgeKind id kind => fun e => if e.id = some id then { e with kind := kind } else e
  | .setRouteKey id key => fun e =>
    if e.id = some id then { e with routeKey := Graph.slugKey key } else e
  | _ => fun e => e

/-- The identifier of the edge that the change is about, if it is about one. -/
def edgeId? : Operation → Option String
  | .removeEdge id | .rerouteEdge id _ _ | .setEdgeKind id _ | .setRouteKey id _ => some id
  | _ => none

def newEdges : Operation → List Edge
  | .connect source target id => [{ id := some id, source := source, target := target }]
  | _ => []

/-- The edges after a change, before they are brought into canonical form. -/
def edgesAfter (op : Operation) (edges : List Edge) : List Edge :=
  (edges.filter op.keepsEdge).map op.editEdge ++ op.newEdges

@[simp] theorem id_editEdge (op : Operation) (e : Edge) : (op.editEdge e).id = e.id := by
  cases op <;> simp only [editEdge] <;> split <;> rfl

/-- An edge that the change is not about is not edited. -/
theorem editEdge_of_ne {op : Operation} {e : Edge}
    (h : ∀ id, op.edgeId? = some id → e.id ≠ some id) : op.editEdge e = e := by
  cases op with
  | rerouteEdge id => exact if_neg (h id rfl)
  | setEdgeKind id => exact if_neg (h id rfl)
  | setRouteKey id => exact if_neg (h id rfl)
  | _ => rfl

/-- A change of a list of edges is one of each part of it. -/
theorem edgesAfter_append_cons (op : Operation) (before after : List Edge) (e : Edge) :
    op.edgesAfter (before ++ e :: after) =
      (before.filter op.keepsEdge).map op.editEdge ++
        (if op.keepsEdge e then [op.editEdge e] else []) ++ op.edgesAfter after := by
  cases hkeeps : op.keepsEdge e <;> simp [edgesAfter, hkeeps]

/-- The identifiers after a change are those of the edges that stay and of the new ones. -/
theorem edgeIds_edgesAfter (op : Operation) (edges : List Edge) :
    edgeIds (op.edgesAfter edges) =
      edgeIds (edges.filter op.keepsEdge) ++ edgeIds op.newEdges := by
  have hedit : ((edges.filter op.keepsEdge).map op.editEdge).map (·.id) =
      (edges.filter op.keepsEdge).map (·.id) := by
    rw [List.map_map]
    exact List.map_congr_left fun e _ => op.id_editEdge e
  rw [edgesAfter, edgeIds_append, edgeIds_congr hedit]

def pins (edges : List Edge) : Operation → List String
  | .setEdgeKind id kind => if kind = .conditional then [id] else []
  | .setRouteKey id _ =>
    if edges.any fun e => e.id = some id && e.isConditional then [id] else []
  | _ => []

/-! ## Success -/

/-- The change is about nodes and edges that are there, and appends no node whose identifier is
used. -/
def IsPossible (nodeIds edgeIds : List String) : Operation → Prop
  | .addNode n => n.id ∉ nodeIds
  | .moveNode id _ _ | .updateNode id _ | .toggleTool id _ | .removeNode id => id ∈ nodeIds
  | .connect source target _ => source ∈ nodeIds ∧ target ∈ nodeIds
  | .removeEdge id | .setEdgeKind id _ | .setRouteKey id _ => id ∈ edgeIds
  | .rerouteEdge id source target => id ∈ edgeIds ∧
      (∀ s, source = some s → s ∈ nodeIds) ∧ ∀ t, target = some t → t ∈ nodeIds

/-- The change connects nodes that are connected already. -/
def isRepeated (g : Graph) : Operation → Bool
  | .connect source target _ => g.isConnected source target
  | _ => false

end Operation

/-! ## One node or edge in the place of others -/

namespace Graph

variable {g g' : Graph} {id : String}

/-- Where identifiers are distinct, a node is found by its own. -/
theorem node?_of_mem (hnodes : (nodeIds g.nodes).Nodup) {n : Node} (hn : n ∈ g.nodes) :
    g.node? n.id = some n := by
  rw [node?, ← List.head?_filter, filter_eq_singleton hnodes hn]
  rfl

/-- Look-up finds the first edge with an identifier. -/
theorem edge?_eq_of_split {before after : List Edge} {e : Edge}
    (hsplit : g.edges = before ++ e :: after) (hbefore : id ∉ edgeIds before)
    (hid : e.id = some id) : g.edge? id = some e := by
  have hnone : before.find? (·.id = some id) = none := by
    rw [List.find?_eq_none]
    intro e' he' hid'
    exact hbefore (mem_edgeIds.2 ⟨e', he', of_decide_eq_true hid'⟩)
  rw [edge?, hsplit, List.find?_append, hnone]
  simp [hid]

/-- Where identifiers are distinct, an edge is found by its own. -/
theorem edge?_of_mem (hedges : (edgeIds g.edges).Nodup) {e : Edge} (he : e ∈ g.edges)
    (hid : e.id = some id) : g.edge? id = some e := by
  obtain ⟨before, after, hsplit, hothers⟩ := exists_split_of_mem hedges he hid
  rw [edgeIds_append, List.mem_append, not_or] at hothers
  exact edge?_eq_of_split hsplit hothers.1 hid

/-- An edge is found exactly if its identifier is in use. -/
theorem exists_edge?_iff : (∃ e, g.edge? id = some e) ↔ id ∈ edgeIds g.edges := by
  rw [← Option.ne_none_iff_exists', mem_edgeIds, edge?, ne_eq, List.find?_eq_none]
  simp

/-- Where identifiers are distinct, putting a changed node in the place of those with its
identifier changes the nodes with that identifier. -/
theorem replaceNode_eq_map (hnodes : (nodeIds g.nodes).Nodup) {n : Node} (h : g.node? id = some n)
    {f : Node → Node} (hf : (f n).id = n.id) :
    g.replaceNode (f n) = g.nodes.map fun old => if old.id = id then f old else old := by
  obtain ⟨-, rfl⟩ := mem_of_node? h
  refine List.map_congr_left fun old hold => ?_
  rw [hf]
  -- Only the node that was found has the identifier.
  split
  · next hid =>
    rw [← hid, node?_of_mem hnodes hold, Option.some.injEq] at h
    rw [h]
  · rfl

/-- Where identifiers are distinct, so does putting a changed edge in the place of those with its
identifier. -/
theorem replaceEdge_eq_map (hedges : (edgeIds g.edges).Nodup) {e : Edge} (h : g.edge? id = some e)
    {f : Edge → Edge} (hf : (f e).id = e.id) :
    g.replaceEdge (f e) = g.edges.map fun old => if old.id = some id then f old else old := by
  obtain ⟨-, hid⟩ := mem_of_edge? h
  refine List.map_congr_left fun old hold => ?_
  rw [hf, hid]
  split
  · next hid' =>
    rw [edge?_of_mem hedges hold hid', Option.some.injEq] at h
    rw [h]
  · rfl

/-- Whether any edge with the identifier is conditional is whether the one that is found is. -/
theorem isConditional_of_edge? (hedges : (edgeIds g.edges).Nodup) {e : Edge}
    (h : g.edge? id = some e) :
    (g.edges.any fun e => e.id = some id && e.isConditional) = e.isConditional := by
  obtain ⟨hmem, hid⟩ := mem_of_edge? h
  rw [Bool.eq_iff_iff, List.any_eq_true]
  constructor
  · rintro ⟨e', he', hcond⟩
    rw [Bool.and_eq_true, decide_eq_true_eq] at hcond
    rw [edge?_of_mem hedges he' hcond.1, Option.some.injEq] at h
    exact h ▸ hcond.2
  · intro hcond
    exact ⟨e, hmem, by simp [hid, hcond]⟩

end Graph

/-! ## All changes -/

namespace Operation

variable {g g' : Graph} {op : Operation}

/-- A change of one node, as one of all nodes. -/
theorem modifyNode_eq_ok_iff_map (hnodes : (nodeIds g.nodes).Nodup) {id : String} (f : Node → Node)
    (hf : ∀ n, (f n).id = n.id) : g.modifyNode id f = .ok g' ↔
      id ∈ nodeIds g.nodes ∧
        g' = g.rebuild (g.nodes.map fun n => if n.id = id then f n else n) g.edges [] := by
  rw [Graph.modifyNode_eq_ok_iff, ← Graph.exists_node?_iff, ← exists_and_right]
  refine exists_congr fun n => and_congr_right fun h => ?_
  rw [Graph.replaceNode_eq_map hnodes h (hf n)]

/-- A change of one edge, as one of all edges. -/
theorem exists_replaceEdge_iff_map (hedges : (edgeIds g.edges).Nodup) {id : String}
    (f : Edge → Edge) (hf : ∀ e, (f e).id = e.id) (pinned : List String) :
    (∃ e, g.edge? id = some e ∧ g' = g.rebuild g.nodes (g.replaceEdge (f e)) pinned) ↔
      id ∈ edgeIds g.edges ∧
        g' = g.rebuild g.nodes (g.edges.map fun e => if e.id = some id then f e else e) pinned := by
  rw [← Graph.exists_edge?_iff, ← exists_and_right]
  refine exists_congr fun e => and_congr_right fun h => ?_
  rw [Graph.replaceEdge_eq_map hedges h (hf e)]

/-- **What a change does**: where identifiers are distinct, it succeeds exactly if what it is about
is there. Then the nodes and edges, each changed by itself, are brought into canonical form, unless
the change is a repeated connection, which changes nothing. -/
theorem apply_eq_ok_iff (h : g.IdsDistinct) :
    op.apply g = .ok g' ↔ op.IsPossible (nodeIds g.nodes) (edgeIds g.edges) ∧
      g' = if op.isRepeated g then g
        else g.rebuild (op.nodesAfter g.nodes) (op.edgesAfter g.edges) (op.pins g.edges) := by
  unfold nodesAfter edgesAfter keepsNode editNode newNodes keepsEdge editEdge newEdges pins
    IsPossible isRepeated
  -- For each change, what it does alone is put in terms of what stays, what is edited and what is
  -- new.
  cases op with
  | addNode n =>
    rw [apply, Graph.addNode_eq_ok_iff]
    simp
  | moveNode id x y =>
    rw [apply, Graph.moveNode, modifyNode_eq_ok_iff_map h.nodes
      (fun n => { n with position := some [("x", x), ("y", y)] }) fun _ => rfl]
    simp
  | updateNode id changes =>
    rw [apply, modifyNode_eq_ok_iff_map h.nodes changes.apply fun _ => rfl]
    simp
  | toggleTool id tool =>
    rw [apply, modifyNode_eq_ok_iff_map h.nodes (·.toggleTool tool) fun _ => rfl]
    simp
  | removeNode id =>
    rw [apply, Graph.removeNode_eq_ok_iff]
    simp
  | connect source target id =>
    rw [apply, Graph.connect_eq_ok_iff]
    simp [and_assoc]
  | removeEdge id =>
    rw [apply, Graph.removeEdge_eq_ok_iff, Graph.exists_edge?_iff]
    simp
  | rerouteEdge id source target =>
    -- Whether the new ends are there does not depend on the edge.
    have hends : ∀ {P Q : Edge → Prop} {S T : Prop},
        (∃ e, P e ∧ S ∧ T ∧ Q e) ↔ (∃ e, P e ∧ Q e) ∧ S ∧ T := by
      intro P Q S T
      constructor
      · rintro ⟨e, hP, hS, hT, hQ⟩
        exact ⟨⟨e, hP, hQ⟩, hS, hT⟩
      · rintro ⟨⟨e, hP, hQ⟩, hS, hT⟩
        exact ⟨e, hP, hS, hT, hQ⟩
    rw [apply, Graph.rerouteEdge_eq_ok_iff, hends,
      exists_replaceEdge_iff_map h.edges (Graph.movedEdge · source target) fun _ => rfl,
      and_right_comm]
    simp [and_assoc]
  | setEdgeKind id kind =>
    rw [apply, Graph.setEdgeKind_eq_ok_iff,
      exists_replaceEdge_iff_map h.edges (fun e => { e with kind := kind }) fun _ => rfl]
    simp
  | setRouteKey id key =>
    have hpins : ∀ e, g.edge? id = some e →
        (if e.isConditional then [id] else []) = pins g.edges (.setRouteKey id key) := by
      intro e he
      rw [pins, Graph.isConditional_of_edge? h.edges he]
    rw [apply, Graph.setRouteKey_eq_ok_iff,
      exists_congr fun e => and_congr_right fun he => by rw [hpins e he],
      exists_replaceEdge_iff_map h.edges (fun e => { e with routeKey := Graph.slugKey key })
        fun _ => rfl]
    simp [pins]

end Operation

end AgentFlow
