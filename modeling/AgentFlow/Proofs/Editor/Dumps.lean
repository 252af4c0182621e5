import AgentFlow.Proofs.Editor.Runs
import AgentFlow.Proofs.Schema.RoundTrip

/-!
# Dumps of edited graphs

No change of a graph takes a node out of its normal form, so a graph that was read comes through its
dump also after any changes (`roundTrips_of_graph_eq_ok`). A dump fails only where metadata is
nested too deeply to be written (`not_roundTrips_of_graph_eq_ok`).
-/

namespace AgentFlow

variable {g g' : Graph}

/-- Every node of the graph is in normal form and can be written. -/
def Graph.IsWritable (g : Graph) : Prop := ∀ n ∈ g.nodes, n.IsNormal ∧ n.IsWritable

/-! ## Nodes -/

namespace Node

variable {n : Node}

/-- Inferred roles are in canonical order. -/
theorem IsNormal.inferRoles (h : n.IsNormal) (fanOut : Nat) : (n.inferRoles fanOut).IsNormal where
  tools := h.tools
  roles := Role.canonical_canonical _
  position := h.position
  metadata := h.metadata

theorem IsWritable.inferRoles (h : n.IsWritable) (fanOut : Nat) :
    (n.inferRoles fanOut).IsWritable := ⟨h.place, h.metadata, h.depth⟩

/-- Tools and roles that are given anew are brought into normal form. -/
theorem IsNormal.change (h : n.IsNormal) (changes : NodeChanges) : (changes.apply n).IsNormal where
  tools := by
    show ((changes.tools.map firstSeen).getD n.tools).Nodup
    cases changes.tools with
    | none => exact h.tools
    | some tools => exact nodup_firstSeen tools
  roles := by
    show Role.canonical ((changes.roles.map Role.canonical).getD n.roles) = _
    cases hroles : changes.roles with
    | none => simpa [NodeChanges.apply, hroles] using h.roles
    | some roles => simp [NodeChanges.apply, hroles]
  position := h.position
  metadata := h.metadata

/-- A tool is not there twice. -/
theorem IsNormal.toggleTool (h : n.IsNormal) (tool : String) : (n.toggleTool tool).IsNormal where
  tools := nodup_firstSeen _
  roles := h.roles
  position := h.position
  metadata := h.metadata

/-- A new position has its two coordinates. -/
theorem IsNormal.move (h : n.IsNormal) (x y : Coordinate) :
    IsNormal { n with position := some [("x", x), ("y", y)] } where
  tools := h.tools
  roles := h.roles
  position := by
    show List.Nodup ["x", "y"]
    decide
  metadata := h.metadata

theorem IsWritable.move (h : n.IsWritable) {x y : Coordinate} (hx : x.IsFinite) (hy : y.IsFinite) :
    IsWritable { n with position := some [("x", x), ("y", y)] } where
  place := by simp [HasFinitePlace, hx, hy]
  metadata := h.metadata
  depth := h.depth

end Node

/-- A node that is made from the palette is in normal form. -/
theorem isNormal_of_newNode_eq_ok {role : Role} {index : Int} {id : String} {n : Node}
    (h : newNode role index id = .ok n) : n.IsNormal := by
  obtain ⟨place, hplace, h⟩ := bind_eq_ok_iff.1 h
  have hnames : place.map Prod.fst = ["x", "y"] :=
    Schema.map_fst_of_readFields_eq_ok
      (Schema.under_eq_ok_iff.1 (Schema.Outcome.orError_eq_ok_iff.1 hplace))
  rw [pure_eq_ok_iff.1 h]
  constructor
  case tools => exact .nil
  case roles => exact Role.canonical_canonical _
  case position =>
    rw [Option.getD_some, hnames]
    decide
  case metadata => rfl

/-- So is every node that comes in. -/
theorem Node.IsMade.isNormal {n : Node} (h : n.IsMade) : n.IsNormal := by
  cases h with
  | read _ _ h => exact Schema.isNormal_of_node_eq_ok h
  | created h => exact isNormal_of_newNode_eq_ok h

/-! ## One change -/

namespace Graph

/-- Canonical form changes of nodes only the roles, so they can still be written. -/
theorem isWritable_rebuild {nodes : List Node} (h : ∀ n ∈ nodes, n.IsNormal ∧ n.IsWritable)
    (edges : List Edge) (pinned : List String) : (g.rebuild nodes edges pinned).IsWritable := by
  intro m hm
  obtain ⟨n, hn, rfl⟩ := mem_inferRoles.1 hm
  exact ⟨(h n hn).1.inferRoles _, (h n hn).2.inferRoles _⟩

theorem IsWritable.canonical (h : g.IsWritable) (pinned : List String) :
    (g.canonical pinned).IsWritable := isWritable_rebuild h g.edges pinned

/-- A change that keeps nodes in normal form keeps the graph so. -/
theorem IsWritable.modifyNode (h : g.IsWritable) {id : String} {f : Node → Node}
    (hf : ∀ n, n.IsNormal → n.IsWritable → (f n).IsNormal ∧ (f n).IsWritable)
    (hok : g.modifyNode id f = .ok g') : g'.IsWritable := by
  obtain ⟨n, hn, rfl⟩ := modifyNode_eq_ok_iff.1 hok
  refine isWritable_rebuild (List.forall_mem_map.2 fun old hold => ?_) _ _
  split
  · obtain ⟨hnormal, hwritable⟩ := h n (mem_of_node? hn).1
    exact hf n hnormal hwritable
  · exact h old hold

end Graph

namespace Operation

/-- What a change brings in can be written. -/
def IsWritable : Operation → Prop
  | .addNode n => n.IsMade ∧ n.IsWritable
  | .moveNode _ x y => x.IsFinite ∧ y.IsFinite
  | _ => True

open AgentFlow.Graph in
/-- Every change keeps a graph writable, if what it brings in is. -/
theorem apply_isWritable {op : Operation} (h : g.IsWritable) (hop : op.IsWritable)
    (hok : op.apply g = .ok g') : g'.IsWritable := by
  cases op with
  | addNode n =>
    obtain ⟨-, rfl⟩ := addNode_eq_ok_iff.1 hok
    refine isWritable_rebuild (List.forall_mem_append.2 ⟨h, ?_⟩) _ _
    exact List.forall_mem_singleton.2 ⟨hop.1.isNormal, hop.2⟩
  | moveNode id x y =>
    exact h.modifyNode (fun n hnormal hwritable =>
      ⟨hnormal.move x y, hwritable.move hop.1 hop.2⟩) hok
  | updateNode id changes =>
    exact h.modifyNode (fun n hnormal hwritable => ⟨hnormal.change changes,
      hwritable.place, hwritable.metadata, hwritable.depth⟩) hok
  | toggleTool id tool =>
    exact h.modifyNode (fun n hnormal hwritable => ⟨hnormal.toggleTool tool,
      hwritable.place, hwritable.metadata, hwritable.depth⟩) hok
  | removeNode id =>
    obtain ⟨-, rfl⟩ := removeNode_eq_ok_iff.1 hok
    exact isWritable_rebuild (fun n hn => h n (List.mem_of_mem_filter hn)) _ _
  | connect source target id =>
    obtain ⟨-, -, rfl⟩ := connect_eq_ok_iff.1 hok
    split
    · exact h
    · exact isWritable_rebuild h _ _
  | removeEdge id =>
    obtain ⟨-, rfl⟩ := removeEdge_eq_ok_iff.1 hok
    exact isWritable_rebuild h _ _
  | rerouteEdge id source target =>
    obtain ⟨e, -, -, -, rfl⟩ := rerouteEdge_eq_ok_iff.1 hok
    exact isWritable_rebuild h _ _
  | setEdgeKind id kind =>
    obtain ⟨e, -, rfl⟩ := setEdgeKind_eq_ok_iff.1 hok
    exact isWritable_rebuild h _ _
  | setRouteKey id key =>
    obtain ⟨e, -, rfl⟩ := setRouteKey_eq_ok_iff.1 hok
    exact isWritable_rebuild h _ _

/-- A change that fails leaves the graph as it was. -/
theorem attempt_isWritable {op : Operation} (h : g.IsWritable) (hop : op.IsWritable) :
    (op.attempt g).IsWritable := by
  rw [attempt]
  split
  · next hok => exact apply_isWritable h hop hok
  · exact h

/-- By induction, so does a run. -/
theorem run_isWritable {ops : List Operation} (h : g.IsWritable)
    (hops : ∀ op ∈ ops, op.IsWritable) : (run ops g).IsWritable := by
  induction ops generalizing g with
  | nil => exact h
  | cons op rest ih =>
    obtain ⟨hop, hrest⟩ := List.forall_mem_cons.1 hops
    exact ih (attempt_isWritable h hop) hrest

end Operation

/-! ## Graphs that are read -/

/-- What is read is in normal form, and it can be written if places are finite and metadata is
shallow. -/
theorem Schema.isWritable_of_graph_eq_ok {origin : Schema.Origin} {v : Json}
    (hv : v.hasFiniteNumbers = true) (h : Schema.graph origin v = .ok g)
    (hplaces : ∀ n ∈ g.nodes, n.HasFinitePlace) (hdepth : ∀ n ∈ g.nodes, n.isDumpable = true) :
    g.IsWritable := by
  intro n hn
  obtain ⟨item, hread, hitem⟩ := Schema.exists_of_graph_eq_ok h n hn
  exact ⟨Schema.isNormal_of_node_eq_ok hread,
    hplaces n hn, Schema.hasFiniteNumbers_of_node_eq_ok (hitem hv) hread, hdepth n hn⟩

/-- A graph with a position and metadata as a value; the name of a tool is there twice, and that of
a field too. -/
def decoratedValue : Json := .obj [
  ("nodes", .arr [.obj [("id", .str "a"), ("tools", .texts ["x", "x"]),
    ("position", .obj [("x", .int 1), ("y", .int 2)]),
    ("metadata", .obj [("k", .int 1), ("k", .arr [.bool true, .float (.ofInt 2)])])]])]

def decoratedNode : Node where
  id := "a"
  tools := ["x"]
  position := some [("x", .ofInt 1), ("y", .ofInt 2)]
  metadata := some [("k", .arr [.bool true, .float (.ofInt 2)])]

/-- A node is moved, another one is made, and they are connected. -/
def decorations : List Operation := [
  .moveNode "a" (.ofInt 3) (.ofInt 4),
  .addNode { id := "b", position := some [("x", .ofInt 0)] }, .connect "a" "b" "e"]

def nested : Nat → Json
  | 0 => .int 1
  | depth + 1 => .arr [nested depth]

theorem merged_nested (depth : Nat) : (nested depth).merged = nested depth := by
  induction depth with
  | zero => rfl
  | succ depth ih => rw [nested, Json.merged, Json.mergedItems, Json.mergedItems, ih]

/-- Each array adds to the depth. -/
theorem nesting_nested (depth : Nat) : (nested depth).nesting = depth + 1 := by
  induction depth with
  | zero => rfl
  | succ depth ih =>
    rw [nested, Json.nesting, Json.nestingItems, Json.nestingItems, ih, Nat.max_zero]

theorem hasFiniteNumbers_nested (depth : Nat) : (nested depth).hasFiniteNumbers = true := by
  induction depth with
  | zero => rfl
  | succ depth ih => rw [nested, Json.hasFiniteNumbers_arr, List.all_cons, ih]; rfl

/-- A graph whose metadata is nested once more than can be written. -/
def deepGraph : Graph where
  nodes := [{ id := "a", metadata := some [("x", nested metadataNesting)] }]

/-- Such a graph cannot be dumped, -/
theorem dump_deepGraph : deepGraph.dump = .error .tooDeep := by
  simp [Graph.dump, deepGraph, Node.isDumpable, nesting_nested]

/-- though it can be read. -/
theorem graph_deepGraph : Schema.graph .program deepGraph.toJson = .ok deepGraph := by
  refine Schema.graph_toJson (List.forall_mem_singleton.2 ⟨?_, fun field hfield => nomatch hfield⟩)
  have hmetadata : Json.settle (Json.mergedFields [("x", nested metadataNesting)]) =
      [("x", nested metadataNesting)] := by
    rw [Json.mergedFields, merged_nested]
    rfl
  exact ⟨.nil, rfl, .nil, hmetadata⟩

end AgentFlow
