import AgentFlow.Proofs.Plan.Basic

/-!
# A plan in terms of its graph

Planning puts keys in the place of identifiers before it lays anything out. Every node has its own
key (`keyOf_inj`), so what a plan finds at the key of a node is what the graph has at the node
(`wiresFrom_keyOf`), and the parts of a plan can be said of the edges of the graph: `parts_of_plan`.
-/

namespace AgentFlow

/-! ## Edges by their source -/

def edgesFrom (edges : List Edge) (id : String) : List Edge := edges.filter (·.source = id)

def conditionalFrom (edges : List Edge) (id : String) : List Edge :=
  (edgesFrom edges id).filter (·.isConditional)

def unconditional (edges : List Edge) : List Edge := edges.filter fun e => !e.isConditional

theorem mem_edgesFrom {edges : List Edge} {id : String} {e : Edge} :
    e ∈ edgesFrom edges id ↔ e ∈ edges ∧ e.source = id := by
  simp [edgesFrom]

theorem mem_conditionalFrom {edges : List Edge} {id : String} {e : Edge} :
    e ∈ conditionalFrom edges id ↔ e ∈ edges ∧ e.source = id ∧ e.isConditional = true := by
  simp [conditionalFrom, mem_edgesFrom, and_assoc]

/-- A conditional edge leaves a node of the graph. -/
theorem mem_nodeIds_of_mem_conditionalFrom {nodes : List Node} {edges : List Edge} {id : String}
    (hgraph : Intact nodes edges) {e : Edge} (he : e ∈ conditionalFrom edges id) :
    id ∈ nodeIds nodes := by
  obtain ⟨hmem, rfl, -⟩ := mem_conditionalFrom.1 he
  exact (hgraph.ends e hmem).1

namespace Plan

variable {nodes : List Node} {edges : List Edge} {entryId : Option String} {id id' : String}

/-! ## Keys of identifiers -/

/-- The key of the node with an identifier; empty, which is no key, where there is no such node. -/
def keyOf (nodes : List Node) (id : String) : String := ((keyTable nodes).lookup id).getD ""

theorem lookup_keyTable (hid : id ∈ nodeIds nodes) :
    (keyTable nodes).lookup id = some (keyOf nodes id) := by
  obtain ⟨key, hkey⟩ := exists_lookup_keyTable_iff.2 hid
  rw [keyOf, hkey, Option.getD_some]

/-- The key of a node is one of those that were assigned. -/
theorem keyOf_mem_assignKeys (hid : id ∈ nodeIds nodes) : keyOf nodes id ∈ assignKeys nodes :=
  mem_assignKeys_of_lookup (lookup_keyTable hid)

/-- Keys tell nodes apart. -/
theorem keyOf_inj (hid : id ∈ nodeIds nodes) (hid' : id' ∈ nodeIds nodes) :
    keyOf nodes id = keyOf nodes id' ↔ id = id' := by
  constructor
  · intro heq
    -- Both are entries of the key table, in which no key occurs twice.
    have hmem := mem_of_lookup (lookup_keyTable hid)
    have hmem' := mem_of_lookup (lookup_keyTable hid')
    have hkeys : ((keyTable nodes).map Prod.snd).Nodup := by
      rw [map_snd_keyTable]
      exact nodup_assignKeys nodes
    exact congrArg Prod.fst (List.inj_on_of_nodup_map hkeys hmem hmem' heq)
  · rintro rfl
    rfl

/-- A node is planned under the key of its identifier. -/
theorem key_of_mem_withKeys (hids : (nodeIds nodes).Nodup) {q : PlannedNode}
    (hq : q ∈ withKeys nodes) : q.key = keyOf nodes q.node.id := by
  rw [keyOf, lookup_of_mem_withKeys hids hq, Option.getD_some]

/-! ## Wires of edges -/

def wireOf (nodes : List Node) (e : Edge) : Wire :=
  ⟨keyOf nodes e.source, keyOf nodes e.target, e.isConditional, Routing.explicitKey e⟩

/-- Where its ends are nodes, an edge has one wire. -/
theorem isWireOf_iff {e : Edge} {w : Wire}
    (hends : e.source ∈ nodeIds nodes ∧ e.target ∈ nodeIds nodes) :
    IsWireOf (keyTable nodes) e w ↔ w = wireOf nodes e := by
  constructor
  · rintro ⟨hsource, htarget, hconditional, hkey⟩
    rw [lookup_keyTable hends.1, Option.some.injEq] at hsource
    rw [lookup_keyTable hends.2, Option.some.injEq] at htarget
    rw [wireOf, hsource, htarget, ← hconditional, ← hkey]
  · rintro rfl
    exact ⟨lookup_keyTable hends.1, lookup_keyTable hends.2, rfl, rfl⟩

/-- Edges between nodes have one wire each, in order. -/
theorem forall₂_isWireOf_iff {wires : List Wire}
    (hends : ∀ e ∈ edges, e.source ∈ nodeIds nodes ∧ e.target ∈ nodeIds nodes) :
    List.Forall₂ (IsWireOf (keyTable nodes)) edges wires ↔ wires = edges.map (wireOf nodes) := by
  induction edges generalizing wires with
  | nil => simp
  | cons e rest ih =>
    obtain ⟨hhead, hrest⟩ := List.forall_mem_cons.1 hends
    rw [List.forall₂_cons_left_iff, List.map_cons]
    constructor
    · rintro ⟨w, ws, hw, hws, rfl⟩
      rw [(isWireOf_iff hhead).1 hw, (ih hrest).1 hws]
    · rintro rfl
      exact ⟨_, _, (isWireOf_iff hhead).2 rfl, (ih hrest).2 rfl, rfl⟩

/-- What the plan of a graph is, if it has one. -/
theorem plan_eq_ok_iff_assemble {p : Plan} : plan nodes edges entryId = .ok p ↔
    Intact nodes edges ∧ p = assemble (withKeys nodes) (plannedNodes nodes edges) edges
      (edges.map (wireOf nodes)) entryId := by
  constructor
  · intro h
    have hintact : Intact nodes edges := (exists_plan_iff entryId).1 ⟨p, h⟩
    obtain ⟨-, -, wires, hwires, rfl⟩ := plan_eq_ok_iff.1 h
    rw [(forall₂_isWireOf_iff hintact.ends).1 hwires]
    exact ⟨hintact, rfl⟩
  · rintro ⟨h, rfl⟩
    exact plan_eq_ok_iff.2
      ⟨h.nodup_ids, h.agents, _, (forall₂_isWireOf_iff h.ends).2 rfl, rfl⟩

/-- The planned nodes are the nodes under their keys. -/
theorem mem_withKeys_of_plan {p : Plan} (h : plan nodes edges entryId = .ok p) {q : PlannedNode}
    (hq : q ∈ p.nodes) : q ∈ withKeys nodes := by
  obtain ⟨hintact, rfl⟩ := plan_eq_ok_iff_assemble.1 h
  exact (plannedNodes_perm edges hintact.nodup_ids).mem_iff.1 hq

/-! ## What is found at a key -/

/-- The wires at the key of a node are those of the edges out of it: no other node has the key. -/
theorem wiresFrom_keyOf (h : Intact nodes edges) (hid : id ∈ nodeIds nodes) :
    wiresFrom (edges.map (wireOf nodes)) (keyOf nodes id) =
      (edgesFrom edges id).map (wireOf nodes) := by
  rw [wiresFrom, List.filter_map, edgesFrom]
  -- The filters agree because keys tell the sources of edges apart.
  refine congrArg _ (List.filter_congr fun e he => ?_)
  simp [wireOf, keyOf_inj (h.ends e he).1 hid]

def branchFrom (nodes : List Node) (id : String) (conditional : List Edge) : Branch :=
  branchOf (keyOf nodes id) (conditional.map (wireOf nodes))

/-- The branch at the key of a node is made of its conditional edges, and there is none without any.
-/
theorem branch?_keyOf (h : Intact nodes edges) (hid : id ∈ nodeIds nodes) :
    branch? (edges.map (wireOf nodes)) (keyOf nodes id) =
      if conditionalFrom edges id = [] then none
      else some (branchFrom nodes id (conditionalFrom edges id)) := by
  have hconditional : (wiresFrom (edges.map (wireOf nodes)) (keyOf nodes id)).filter
      (·.isConditional) = (conditionalFrom edges id).map (wireOf nodes) := by
    rw [wiresFrom_keyOf h hid, List.filter_map]
    rfl
  -- A branch is there if the list of its wires is not empty, and that is as long as that of the
  -- edges.
  rw [branch?, hconditional]
  cases conditionalFrom edges id <;> simp [branchFrom]

/-! ## The parts of a plan -/

def ids (p : Plan) : List String := p.nodes.map (·.node.id)

def endKeys (nodes : List Node) (e : Edge) : String × String :=
  (keyOf nodes e.source, keyOf nodes e.target)

/-- The parts of a plan, each said of the nodes and edges of the graph. -/
structure Parts (nodes : List Node) (edges : List Edge) (entryId : Option String) (p : Plan) :
    Prop where
  ids_perm : p.ids.Perm (nodeIds nodes)
  keys_eq : ∀ q ∈ p.nodes, q.key = keyOf nodes q.node.id
  entry_eq : (p.entry, p.entryIsFallback) = entryKey (withKeys nodes) edges entryId
  edges_eq : p.edges = (unconditional (p.ids.flatMap (edgesFrom edges))).map (endKeys nodes)
  branches_eq : p.branches = (p.ids.filter (conditionalFrom edges · ≠ [])).map
    fun id => branchFrom nodes id (conditionalFrom edges id)
  sinks_eq : p.sinks = (p.ids.filter (edgesFrom edges · = [])).map (keyOf nodes)
  unreachable_eq : p.unreachable =
    unreachableKeys (p.ids.map (keyOf nodes)) p.entry (arrows p.edges p.branches)

/-- The plain edges are the keys of the ends of those that are not conditional. -/
theorem plainEdges_map_wireOf (es : List Edge) :
    plainEdges (es.map (wireOf nodes)) = (unconditional es).map (endKeys nodes) := by
  rw [plainEdges, List.filter_map, List.map_map]
  rfl

/-- Branches come in the order of the nodes, one for each that has conditional edges. -/
theorem filterMap_branch?_keyOf (h : Intact nodes edges) {ids : List String}
    (hids : ∀ id ∈ ids, id ∈ nodeIds nodes) :
    (ids.map (keyOf nodes)).filterMap (branch? (edges.map (wireOf nodes))) =
      (ids.filter (conditionalFrom edges · ≠ [])).map
        fun id => branchFrom nodes id (conditionalFrom edges id) := by
  induction ids with
  | nil => rfl
  | cons id rest ih =>
    obtain ⟨hid, hrest⟩ := List.forall_mem_cons.1 hids
    by_cases hnil : conditionalFrom edges id = []
    · simp [branch?_keyOf h hid, hnil, ih hrest]
    · simp [branch?_keyOf h hid, hnil, ih hrest]

/-- **The parts of a plan are those of its graph**, with keys in the place of identifiers. -/
theorem parts_of_plan {p : Plan} (h : plan nodes edges entryId = .ok p) :
    Parts nodes edges entryId p := by
  obtain ⟨hintact, rfl⟩ := plan_eq_ok_iff_assemble.1 h
  have hperm := plannedNodes_perm edges hintact.nodup_ids
  have hkeys : ∀ q ∈ plannedNodes nodes edges, q.key = keyOf nodes q.node.id := fun q hq =>
    key_of_mem_withKeys hintact.nodup_ids (hperm.mem_iff.1 hq)
  have hids : ((plannedNodes nodes edges).map (·.node.id)).Perm (nodeIds nodes) := by
    rw [← map_id_withKeys]
    exact hperm.map _
  -- The keys that planning goes by are those of the identifiers, in the same order.
  have hmap : (plannedNodes nodes edges).map PlannedNode.key =
      ((plannedNodes nodes edges).map (·.node.id)).map (keyOf nodes) := by
    rw [List.map_map]
    exact List.map_congr_left hkeys
  have hmem : ∀ id ∈ (plannedNodes nodes edges).map (·.node.id), id ∈ nodeIds nodes :=
    fun id hid => hids.mem_iff.1 hid
  have hflat : (((plannedNodes nodes edges).map (·.node.id)).map (keyOf nodes)).flatMap
      (wiresFrom (edges.map (wireOf nodes))) =
        (((plannedNodes nodes edges).map (·.node.id)).flatMap (edgesFrom edges)).map
          (wireOf nodes) := by
    rw [List.flatMap_map, List.map_flatMap]
    exact List.flatMap_congr fun id hid => wiresFrom_keyOf hintact (hmem id hid)
  constructor
  case ids_perm => exact hids
  case keys_eq => exact hkeys
  case entry_eq => rfl
  -- Every part is a function of the keys in order and of the wires, so these are put in terms of
  -- the identifiers first.
  case edges_eq =>
    show plainEdges (((plannedNodes nodes edges).map PlannedNode.key).flatMap _) = _
    rw [hmap, hflat, plainEdges_map_wireOf]
    rfl
  case branches_eq =>
    show ((plannedNodes nodes edges).map PlannedNode.key).filterMap _ = _
    rw [hmap, filterMap_branch?_keyOf hintact hmem]
    rfl
  -- Here only the filters differ, so it is enough that they agree at each identifier.
  case sinks_eq =>
    show ((plannedNodes nodes edges).map PlannedNode.key).filter _ = _
    rw [hmap, List.filter_map]
    refine congrArg _ (List.filter_congr fun id hid => ?_)
    rw [Function.comp, wiresFrom_keyOf hintact (hmem id hid)]
    cases edgesFrom edges id <;> rfl
  case unreachable_eq =>
    exact congrArg (fun keys => unreachableKeys keys _ _) hmap

end Plan

end AgentFlow
