import AgentFlow.Plan.Basic
import AgentFlow.Proofs.Outcomes
import AgentFlow.Proofs.Plan.Keys
import AgentFlow.Proofs.Plan.Order

/-!
# Which graphs have a plan, and what a plan refers to

A graph has a plan exactly if it is `Intact` (`exists_plan_iff`). In a plan, every key that an
edge, a branch or the entry refers to is the key of a planned node (`resolved_of_plan_eq_ok`), so
nothing that looks a key up later fails.
-/

namespace AgentFlow.Plan

variable {nodes : List Node} {edges : List Edge} {entryId : Option String}

/-! ## The checks -/

/-- The first check passes exactly if no identifier is repeated. -/
theorem checkDistinct_eq_ok_iff : checkDistinct nodes = .ok () ↔ (nodeIds nodes).Nodup := by
  rw [checkDistinct, ← repeated_eq_nil_iff]
  cases repeated (nodeIds nodes) <;> simp

/-- The last check passes exactly if every node is an agent. -/
theorem checkAgents_eq_ok_iff :
    checkAgents nodes = .ok () ↔ ∀ n ∈ nodes, Role.agent ∈ n.roles := by
  rw [checkAgents]
  cases hfind : nodes.find? fun n => .agent ∉ n.roles with
  | none =>
    rw [List.find?_eq_none] at hfind
    simpa using hfind
  -- The node that is found is no agent, so the check fails and not all nodes are.
  | some n =>
    have hn := List.mem_of_find?_eq_some hfind
    have hroles := List.find?_some hfind
    exact ⟨fun h => (nomatch h), fun h => absurd (h n hn) (by simpa using hroles)⟩

/-! ## Wires -/

/-- A wire stands for an edge: its ends have the keys of the edge's ends in a table. -/
structure IsWireOf (table : List (String × String)) (e : Edge) (w : Wire) : Prop where
  source : table.lookup e.source = some w.source
  target : table.lookup e.target = some w.target
  isConditional : w.isConditional = e.isConditional
  routeKey : w.routeKey = Routing.explicitKey e

variable {table : List (String × String)} {wires : List Wire}

/-- An edge has a wire if both its ends are in the table. -/
theorem wire_eq_ok_iff {e : Edge} {w : Wire} : wire table e = .ok w ↔ IsWireOf table e w := by
  rw [wire]
  split
  · next source target hsource htarget =>
    constructor
    · rintro ⟨⟩
      exact ⟨hsource, htarget, rfl, rfl⟩
    · rintro ⟨hs, ht, hconditional, hkey⟩
      cases hsource.symm.trans hs
      cases htarget.symm.trans ht
      rw [← hconditional, ← hkey]
  · next hnone =>
    exact ⟨fun h => (nomatch h), fun h => (hnone _ _ h.source h.target).elim⟩

/-- Wires are made of all edges in order, or of none. -/
theorem wireAll_eq_ok_iff :
    wireAll table edges = .ok wires ↔ List.Forall₂ (IsWireOf table) edges wires := by
  induction edges generalizing wires with
  | nil => simp [wireAll, eq_comm]
  | cons e rest ih =>
    -- Both sides say that there is a wire for the first edge and wires for the others.
    rw [wireAll, bind_eq_ok_iff, List.forall₂_cons_left_iff]
    refine exists_congr fun w => ?_
    rw [wire_eq_ok_iff, bind_eq_ok_iff, ← exists_and_left]
    refine exists_congr fun ws => ?_
    rw [ih, pure_eq_ok_iff]

/-- All edges have wires exactly if they end at nodes of the graph. -/
theorem exists_wireAll_iff : (∃ wires, wireAll (keyTable nodes) edges = .ok wires) ↔
    ∀ e ∈ edges, e.source ∈ nodeIds nodes ∧ e.target ∈ nodeIds nodes := by
  -- The table has an entry for the identifiers of the graph and for nothing else.
  have hwire : ∀ e, (∃ w, IsWireOf (keyTable nodes) e w) ↔
      e.source ∈ nodeIds nodes ∧ e.target ∈ nodeIds nodes := by
    intro e
    rw [← exists_lookup_keyTable_iff, ← exists_lookup_keyTable_iff]
    constructor
    · rintro ⟨w, h⟩
      exact ⟨⟨_, h.source⟩, ⟨_, h.target⟩⟩
    · rintro ⟨⟨source, hsource⟩, ⟨target, htarget⟩⟩
      exact ⟨⟨source, target, e.isConditional, Routing.explicitKey e⟩, hsource, htarget, rfl, rfl⟩
  -- It remains that each edge has a wire exactly if all of them do together.
  simp only [wireAll_eq_ok_iff, ← hwire]
  induction edges with
  | nil => exact ⟨fun _ => by simp, fun _ => ⟨[], .nil⟩⟩
  | cons e rest ih =>
    rw [List.forall_mem_cons]
    constructor
    · rintro ⟨_, hall⟩
      cases hall with
      | cons hw hws => exact ⟨⟨_, hw⟩, ih.1 ⟨_, hws⟩⟩
    · rintro ⟨⟨w, hw⟩, hrest⟩
      obtain ⟨ws, hws⟩ := ih.2 hrest
      exact ⟨w :: ws, .cons hw hws⟩

/-! ## Which graphs have a plan -/

def plannedNodes (nodes : List Node) (edges : List Edge) : List PlannedNode :=
  emissionOrder (fun p => p.node.id) edges (withKeys nodes)

/-- What planning does if it succeeds: the checks pass and the parts are put together. -/
theorem plan_eq_ok_iff {p : Plan} : plan nodes edges entryId = .ok p ↔
    (nodeIds nodes).Nodup ∧ (∀ n ∈ nodes, Role.agent ∈ n.roles) ∧
      ∃ wires, List.Forall₂ (IsWireOf (keyTable nodes)) edges wires ∧
        p = assemble (withKeys nodes) (plannedNodes nodes edges) edges wires entryId := by
  rw [plan, check_eq_ok_iff, checkDistinct_eq_ok_iff]
  refine and_congr_right fun _ => ?_
  rw [bind_eq_ok_iff, ← exists_and_left]
  refine exists_congr fun wires => ?_
  -- The agents are checked after the wires, which says nothing about when both succeed.
  rw [wireAll_eq_ok_iff, check_eq_ok_iff, checkAgents_eq_ok_iff, pure_eq_ok_iff]
  exact and_left_comm

/-- **A graph has a plan exactly if it is intact**, whatever its entry is. -/
theorem exists_plan_iff (entryId : Option String) :
    (∃ p, plan nodes edges entryId = .ok p) ↔ Intact nodes edges := by
  simp only [plan_eq_ok_iff, ← wireAll_eq_ok_iff]
  constructor
  · rintro ⟨_, hids, hagents, wires, hwires, -⟩
    exact ⟨hids, exists_wireAll_iff.1 ⟨wires, hwires⟩, hagents⟩
  · intro h
    obtain ⟨wires, hwires⟩ := exists_wireAll_iff.2 h.ends
    exact ⟨_, h.nodup_ids, h.agents, wires, hwires, rfl⟩

/-! ## Nodes under their keys -/

theorem withKeys_eq_map_zip :
    withKeys nodes = ((assignKeys nodes).zip nodes).map (Function.uncurry PlannedNode.mk) :=
  List.map_uncurry_zip_eq_zipWith.symm

theorem map_key_withKeys : (withKeys nodes).map PlannedNode.key = assignKeys nodes := by
  rw [withKeys_eq_map_zip, List.map_map]
  exact List.map_fst_zip (by simp)

theorem map_node_withKeys : (withKeys nodes).map PlannedNode.node = nodes := by
  rw [withKeys_eq_map_zip, List.map_map]
  exact List.map_snd_zip (by simp)

theorem map_id_withKeys : (withKeys nodes).map (fun p => p.node.id) = nodeIds nodes :=
  calc (withKeys nodes).map (fun p => p.node.id)
      = nodeIds ((withKeys nodes).map PlannedNode.node) := by rw [nodeIds, List.map_map]; rfl
    _ = nodeIds nodes := by rw [map_node_withKeys]

/-- The key of a node without a label is made from its place. -/
theorem exists_cons_key_of_label_eq_empty {p : PlannedNode} (h : p ∈ withKeys nodes)
    (hlabel : p.node.label = "") : ∃ cs, p.key.toList = 'n' :: cs := by
  rw [withKeys_eq_map_zip] at h
  obtain ⟨⟨key, n⟩, hmem, rfl⟩ := List.mem_map.1 h
  -- Keys are made from labels, so the node is forgotten but for its label.
  have hzip : (key, n.label) ∈ (keysFrom 0 [] (nodes.map (·.label))).zip (nodes.map (·.label)) := by
    rw [List.zip_map_right]
    exact List.mem_map.2 ⟨(key, n), hmem, rfl⟩
  obtain ⟨place, used, hkey⟩ := exists_fresh_of_mem_zip_keysFrom hzip
  have hempty : n.label = "" := hlabel
  rw [hempty] at hkey
  obtain ⟨cs, hcs⟩ := exists_cons_baseKey_empty place
  show ∃ cs, key.toList = 'n' :: cs
  rw [hkey]
  exact Text.exists_cons_fresh used hcs

/-- The key table has the identifier and the key of every node. -/
theorem keyTable_eq_map : keyTable nodes = (withKeys nodes).map fun p => (p.node.id, p.key) := by
  rw [keyTable, ← map_id_withKeys, ← map_key_withKeys, List.zip_map']

/-- Every node is planned once. -/
theorem plannedNodes_perm (edges : List Edge) (hids : (nodeIds nodes).Nodup) :
    (plannedNodes nodes edges).Perm (withKeys nodes) := by
  refine emissionOrder_perm ?_
  rw [map_id_withKeys]
  exact hids

/-- The keys of the planned nodes are the assigned keys in another order. -/
theorem map_key_plannedNodes_perm (edges : List Edge) (hids : (nodeIds nodes).Nodup) :
    ((plannedNodes nodes edges).map PlannedNode.key).Perm (assignKeys nodes) := by
  have h := (plannedNodes_perm edges hids).map PlannedNode.key
  rwa [map_key_withKeys] at h

/-- A node goes by the key that its identifier has in the key table. -/
theorem lookup_of_mem_withKeys (hids : (nodeIds nodes).Nodup) {p : PlannedNode}
    (h : p ∈ withKeys nodes) : (keyTable nodes).lookup p.node.id = some p.key := by
  refine lookup_of_mem (by rwa [map_fst_keyTable]) ?_
  rw [keyTable_eq_map]
  exact List.mem_map_of_mem h

/-! ## Branches -/

@[simp] theorem source_foldl_add (b : Branch) (wires : List Wire) :
    (wires.foldl (fun b w => Branch.add b (routeKey w) w.target) b).source = b.source := by
  induction wires generalizing b with
  | nil => rfl
  | cons w rest ih => rw [List.foldl_cons, ih, Branch.add]

/-- A route that is added leads to the target of its wire. -/
theorem map_target_foldl_add (b : Branch) (wires : List Wire) :
    (wires.foldl (fun b w => Branch.add b (routeKey w) w.target) b).routes.map Route.target =
      b.routes.map Route.target ++ wires.map Wire.target := by
  induction wires generalizing b with
  | nil => simp
  | cons w rest ih =>
    rw [List.foldl_cons, ih, Branch.add]
    simp

/-- A node's branch has one route for each of its conditional wires, and there is one at least. -/
theorem branch?_eq_some {source : String} {b : Branch} (h : branch? wires source = some b) :
    b.source = source ∧ b.routes ≠ [] ∧
      b.routes.map Route.target =
        ((wiresFrom wires source).filter (·.isConditional)).map Wire.target := by
  rw [branch?] at h
  split at h
  · cases h
  · next hne =>
    cases h
    -- The branch starts without routes, so its targets are those that were added.
    have htargets : (branchOf source ((wiresFrom wires source).filter (·.isConditional))).routes.map
        Route.target = ((wiresFrom wires source).filter (·.isConditional)).map Wire.target :=
      map_target_foldl_add _ _
    refine ⟨source_foldl_add _ _, ?_, htargets⟩
    intro hnil
    rw [hnil, List.map_nil, eq_comm, List.map_eq_nil_iff] at htargets
    exact hne htargets

/-! ## What a plan refers to -/

/-- All references in a plan are resolved: nodes and the ends of edges have their keys in the key
table, and whatever refers to a node does so by the key of a planned one. -/
structure Resolved (nodes : List Node) (edges : List Edge) (p : Plan) : Prop where
  nodes_perm : (p.nodes.map PlannedNode.node).Perm nodes
  nodup_keys : (p.nodes.map PlannedNode.key).Nodup
  key : ∀ q ∈ p.nodes, (keyTable nodes).lookup q.node.id = some q.key
  ends : ∀ e ∈ edges, ∃ source ∈ p.nodes.map PlannedNode.key,
    ∃ target ∈ p.nodes.map PlannedNode.key, (keyTable nodes).lookup e.source = some source ∧
      (keyTable nodes).lookup e.target = some target
  entry : ∀ key, p.entry = some key → key ∈ p.nodes.map PlannedNode.key
  edges : ∀ edge ∈ p.edges, edge.1 ∈ p.nodes.map PlannedNode.key ∧
    edge.2 ∈ p.nodes.map PlannedNode.key
  sources : (p.branches.map Branch.source).Sublist (p.nodes.map PlannedNode.key)
  routes : ∀ b ∈ p.branches, b.routes ≠ []
  targets : ∀ b ∈ p.branches, ∀ r ∈ b.routes, r.target ∈ p.nodes.map PlannedNode.key

/-- What the key table has is the key of a planned node. -/
theorem mem_plannedKeys_of_lookup (hids : (nodeIds nodes).Nodup) {id key : String}
    (h : (keyTable nodes).lookup id = some key) :
    key ∈ (plannedNodes nodes edges).map PlannedNode.key :=
  (map_key_plannedNodes_perm edges hids).mem_iff.2 (mem_assignKeys_of_lookup h)

/-- The entry is the key of one of the nodes. -/
theorem mem_of_entryKey_eq_some {given : List PlannedNode} {key : String}
    (h : (entryKey given edges entryId).1 = some key) : key ∈ given.map PlannedNode.key := by
  -- The entry is the chosen node, or the first that no edge leads to, or the first of all.
  unfold entryKey at h
  split at h
  · next p hfind =>
    cases h
    exact List.mem_map_of_mem (List.mem_of_find?_eq_some hfind)
  · split at h
    · next p hfind =>
      cases h
      exact List.mem_map_of_mem (List.mem_of_find?_eq_some hfind)
    · split at h
      · cases h
        exact List.mem_map_of_mem List.mem_cons_self
      · cases h

/-- The branches stand at some of the keys, in their order. -/
theorem map_source_branches_sublist (keys : List String) (wires : List Wire) :
    ((keys.filterMap (branch? wires)).map Branch.source).Sublist keys := by
  induction keys with
  | nil => exact List.Sublist.slnil
  | cons key rest ih =>
    cases hbranch : branch? wires key with
    | none =>
      rw [List.filterMap_cons_none hbranch]
      exact ih.cons key
    | some b =>
      rw [List.filterMap_cons_some hbranch, List.map_cons, (branch?_eq_some hbranch).1]
      exact ih.cons_cons key

/-- **A plan refers to planned nodes only.** -/
theorem resolved_of_plan_eq_ok {p : Plan} (h : plan nodes edges entryId = .ok p) :
    Resolved nodes edges p := by
  obtain ⟨hids, -, wires, hwires, rfl⟩ := plan_eq_ok_iff.1 h
  -- The ends of a wire were found in the key table, and its keys are those of the planned nodes.
  have hwire : ∀ w ∈ wires, w.source ∈ (plannedNodes nodes edges).map PlannedNode.key ∧
      w.target ∈ (plannedNodes nodes edges).map PlannedNode.key := by
    intro w hw
    obtain ⟨e, -, he⟩ := exists_left_of_forall₂ hwires hw
    exact ⟨mem_plannedKeys_of_lookup hids he.source, mem_plannedKeys_of_lookup hids he.target⟩
  have hbranch : ∀ b ∈ ((plannedNodes nodes edges).map PlannedNode.key).filterMap (branch? wires),
      ∃ key, branch? wires key = some b := by
    intro b hb
    obtain ⟨key, -, hkey⟩ := List.mem_filterMap.1 hb
    exact ⟨key, hkey⟩
  constructor
  case nodes_perm =>
    have hperm := (plannedNodes_perm edges hids).map PlannedNode.node
    rwa [map_node_withKeys] at hperm
  case nodup_keys =>
    exact (map_key_plannedNodes_perm edges hids).nodup_iff.2 (nodup_assignKeys nodes)
  case key =>
    exact fun q hq => lookup_of_mem_withKeys hids ((plannedNodes_perm edges hids).mem_iff.1 hq)
  case ends =>
    intro e he
    obtain ⟨w, hw, hwe⟩ := exists_right_of_forall₂ hwires he
    exact ⟨w.source, (hwire w hw).1, w.target, (hwire w hw).2, hwe.source, hwe.target⟩
  case entry =>
    intro key hkey
    have hmem := mem_of_entryKey_eq_some hkey
    rw [map_key_withKeys] at hmem
    exact (map_key_plannedNodes_perm edges hids).mem_iff.2 hmem
  case edges =>
    intro edge hedge
    obtain ⟨w, hw, rfl⟩ := List.mem_map.1 hedge
    obtain ⟨key, -, hw⟩ := List.mem_flatMap.1 (List.mem_filter.1 hw).1
    exact hwire w (List.mem_filter.1 hw).1
  case sources =>
    exact map_source_branches_sublist _ wires
  case routes =>
    intro b hb
    obtain ⟨key, hkey⟩ := hbranch b hb
    exact (branch?_eq_some hkey).2.1
  case targets =>
    intro b hb r hr
    obtain ⟨key, hkey⟩ := hbranch b hb
    have htarget : r.target ∈ b.routes.map Route.target := List.mem_map_of_mem hr
    rw [(branch?_eq_some hkey).2.2] at htarget
    obtain ⟨w, hw, heq⟩ := List.mem_map.1 htarget
    rw [← heq]
    exact (hwire w (List.mem_filter.1 (List.mem_filter.1 hw).1).1).2

end AgentFlow.Plan
