import AgentFlow.Proofs.Grouping
import AgentFlow.Proofs.Plan.Branches
import AgentFlow.Proofs.Routing

/-!
# The transitions of a plan

A plan has the transitions of its graph and no others: `Transitions` says where each of them went.
After routing, a node has either no edge out of it, or one plain edge, or several conditional ones,
and so it passes control on in exactly one `Mode` (`transitions_of_plan`).
-/

namespace AgentFlow

variable {nodes : List Node} {edges : List Edge} {entryId : Option String} {id : String}

namespace Plan

variable {p : Plan}

/-! ## The plain edges of a plan -/

theorem mem_unconditional {e : Edge} :
    e ∈ unconditional edges ↔ e ∈ edges ∧ e.isConditional = false := by
  simp [unconditional]

/-- It does not matter whether edges are chosen by their source or by their kind first. -/
theorem filter_source_unconditional (edges : List Edge) (id : String) :
    (unconditional edges).filter (·.source = id) = unconditional (edgesFrom edges id) := by
  rw [unconditional, unconditional, edgesFrom, List.filter_filter, List.filter_filter]
  exact List.filter_congr fun e _ => Bool.and_comm _ _

/-- The kinds can be told apart before the edges are put in order. -/
theorem unconditional_flatMap (ids : List String) :
    unconditional (ids.flatMap (edgesFrom edges)) =
      ids.flatMap fun id => (unconditional edges).filter (·.source = id) := by
  induction ids with
  | nil => rfl
  | cons id rest ih =>
    rw [List.flatMap_cons, List.flatMap_cons, ← ih, filter_source_unconditional]
    exact List.filter_append _ _

/-- The plain edges of a plan are those of the graph, sorted by the places of their sources. -/
theorem Parts.edges_eq_mergeSort (h : Parts nodes edges entryId p) (hgraph : Intact nodes edges) :
    p.edges =
      ((unconditional edges).mergeSort (rankIn p.ids (·.source))).map (endKeys nodes) := by
  have hsources : ∀ e ∈ unconditional edges, e.source ∈ p.ids := by
    intro e he
    exact h.mem_ids.2 (hgraph.ends e (mem_unconditional.1 he).1).1
  rw [h.edges_eq, unconditional_flatMap, mergeSort_rankIn (h.nodup_ids hgraph.nodup_ids) hsources]

/-! ## What stands at one node -/

/-- The plain edges at the key of a node are its unconditional edges, in order. -/
theorem Parts.filter_edges (h : Parts nodes edges entryId p) (hgraph : Intact nodes edges)
    (hid : id ∈ nodeIds nodes) : p.edges.filter (·.1 = keyOf nodes id) =
      (unconditional (edgesFrom edges id)).map (endKeys nodes) := by
  -- Sorting by sources keeps the edges of one source in their order.
  rw [h.edges_eq_mergeSort hgraph, List.filter_map, ← filter_source_unconditional,
    ← filter_mergeSort_rankIn p.ids]
  refine congrArg _ (List.filter_congr fun e he => ?_)
  have hsource : e.source ∈ nodeIds nodes := by
    have hmem := (mem_unconditional.1 (List.mem_mergeSort.1 he)).1
    exact (hgraph.ends e hmem).1
  simp [endKeys, keyOf_inj hsource hid]

/-- A sink is a node without edges out of it. -/
theorem Parts.mem_sinks_iff (h : Parts nodes edges entryId p) (hid : id ∈ nodeIds nodes) :
    keyOf nodes id ∈ p.sinks ↔ edgesFrom edges id = [] := by
  rw [h.sinks_eq, List.mem_map]
  constructor
  · rintro ⟨id', hid', hkey⟩
    obtain ⟨hmem, hnil⟩ := List.mem_filter.1 hid'
    rw [← (keyOf_inj (h.mem_ids.1 hmem) hid).1 hkey]
    simpa using hnil
  · intro hnil
    exact ⟨id, List.mem_filter.2 ⟨h.mem_ids.2 hid, by simpa using hnil⟩, rfl⟩

end Plan

/-! ## How a node passes control on -/

/-- How a node passes control on. -/
inductive Mode where
  | ends
  | continues
  | chooses
  deriving DecidableEq, Repr

/-- In a plan, the node with a key passes control on in a mode: the flow ends at it, or it has one
plain edge and no branch, or it has no plain edge and one branch with two routes at least. -/
def Plan.HasMode (p : Plan) (key : String) : Mode → Prop
  | .ends => key ∈ p.sinks
  | .continues => (p.edges.filter (·.1 = key)).length = 1 ∧ p.branches.filter (·.source = key) = []
  | .chooses => p.edges.filter (·.1 = key) = [] ∧
      ∃ b, p.branches.filter (·.source = key) = [b] ∧ 2 ≤ b.routes.length

namespace Routing

/-- After routing without pins, an edge is conditional if its source has another one. -/
theorem isConditional_of_mem_normalize {e : Edge} (h : e ∈ normalize nodes edges []) :
    e.isConditional = decide (1 < outDegree (normalize nodes edges []) e.source) := by
  obtain ⟨e', -, he⟩ := exists_of_mem_route h
  have hkind := he.kind_eq_conditional_iff
  rw [isBranching_nil, decide_eq_true_eq, ← he.source_eq] at hkind
  rw [Edge.isConditional, outDegree_normalize, decide_eq_decide]
  exact hkind

end Routing

/-- The edges of a graph are conditional exactly where they have a choice: if their source has
another edge. -/
def ChoicesOnly (edges : List Edge) : Prop :=
  ∀ e ∈ edges, e.isConditional = decide (1 < (edgesFrom edges e.source).length)

/-- Routing leaves a choice to conditional edges only. -/
theorem choicesOnly_normalize (nodes : List Node) (edges : List Edge) :
    ChoicesOnly (Routing.normalize nodes edges []) := by
  intro e he
  rw [Routing.isConditional_of_mem_normalize he, outDegree, List.countP_eq_length_filter, edgesFrom]

theorem ChoicesOnly.isConditional_edgesFrom (h : ChoicesOnly edges) {e : Edge}
    (he : e ∈ edgesFrom edges id) :
    e.isConditional = decide (1 < (edgesFrom edges id).length) := by
  obtain ⟨hmem, rfl⟩ := mem_edgesFrom.1 he
  exact h e hmem

/-- The mode of a node with a number of edges out of it. -/
def modeOf : (outDegree : Nat) → Mode
  | 0 => .ends
  | 1 => .continues
  | _ => .chooses

namespace Plan

variable {p : Plan}

/-- The number of edges out of a node decides its mode. -/
theorem Parts.hasMode_iff (h : Parts nodes edges entryId p) (hgraph : Intact nodes edges)
    (hchoices : ChoicesOnly edges) (hid : id ∈ nodeIds nodes) (mode : Mode) :
    p.HasMode (keyOf nodes id) mode ↔ mode = modeOf (edgesFrom edges id).length := by
  have hsink := h.mem_sinks_iff hid
  have hedges := h.filter_edges hgraph hid
  have hbranches := h.filter_branches hgraph.nodup_ids hid
  have hkinds : ∀ e ∈ edgesFrom edges id,
      e.isConditional = decide (1 < (edgesFrom edges id).length) :=
    fun e he => hchoices.isConditional_edgesFrom he
  rw [conditionalFrom] at hbranches
  rw [unconditional] at hedges
  -- Nothing but the edges out of the node matters any more, so the cases are none, one, and more.
  generalize edgesFrom edges id = es at hsink hedges hbranches hkinds ⊢
  rcases es with _ | ⟨e, _ | ⟨f, rest⟩⟩
  · cases mode <;> simp [HasMode, hsink, hedges, hbranches, modeOf]
  · have he : e.isConditional = false := by simpa using hkinds e (by simp)
    cases mode <;> simp [HasMode, hsink, hedges, hbranches, he, modeOf]
  · -- All edges out of the node are conditional.
    have hall : ∀ e' ∈ e :: f :: rest, e'.isConditional = true := by simpa using hkinds
    have hnone : (e :: f :: rest).filter (fun e' => !e'.isConditional) = [] :=
      List.filter_eq_nil_iff.2 fun e' he' => by simp [hall e' he']
    rw [List.filter_eq_self.2 hall] at hbranches
    rw [hnone] at hedges
    cases mode <;> simp [HasMode, hsink, hedges, hbranches, modeOf]

/-! ## No transition is lost or invented -/

/-- The transitions of a plan are those of the graph. The plain edges are the unconditional ones in
the order of their sources, and as they are given within a source. A node with conditional edges has
one branch, which has their targets under distinct route keys, and there are no other branches. -/
structure Transitions (nodes : List Node) (edges : List Edge) (p : Plan) : Prop where
  nodes_perm : (p.nodes.map PlannedNode.node).Perm nodes
  nodup_keys : (p.nodes.map PlannedNode.key).Nodup
  keys_eq : ∀ q ∈ p.nodes, q.key = keyOf nodes q.node.id
  edges_eq : p.edges =
    ((unconditional edges).mergeSort (rankIn p.ids (·.source))).map (endKeys nodes)
  branch : ∀ id, conditionalFrom edges id ≠ [] →
    ∃ b, p.branches.filter (·.source = keyOf nodes id) = [b] ∧
      b.routes.map Route.target = (conditionalFrom edges id).map (fun e => keyOf nodes e.target) ∧
      (b.routes.map Route.key).Nodup
  branches : ∀ b ∈ p.branches, ∃ id ∈ nodeIds nodes, conditionalFrom edges id ≠ [] ∧
    b.source = keyOf nodes id
  sinks_eq : p.sinks =
    (p.nodes.filter fun q => edgesFrom edges q.node.id = []).map PlannedNode.key

/-- The sinks are planned nodes in their order. -/
theorem Parts.sinks_eq_map_key (h : Parts nodes edges entryId p) : p.sinks =
    (p.nodes.filter fun q => edgesFrom edges q.node.id = []).map PlannedNode.key := by
  rw [h.sinks_eq, ids, List.filter_map, List.map_map]
  refine List.map_congr_left fun q hq => ?_
  exact (h.keys_eq q (List.mem_filter.1 hq).1).symm

/-- **Planning keeps the transitions of a graph**; and if the edges have been routed, each planned
node passes control on in exactly one mode. -/
theorem transitions_of_plan (h : plan nodes edges entryId = .ok p) :
    Transitions nodes edges p ∧
      ∀ given routed, edges = Routing.normalize given routed [] →
        ∀ q ∈ p.nodes, ∃! mode, p.HasMode q.key mode := by
  have hgraph : Intact nodes edges := (plan_eq_ok_iff_assemble.1 h).1
  have hparts : Parts nodes edges entryId p := parts_of_plan h
  have hresolved : Resolved nodes edges p := resolved_of_plan_eq_ok h
  refine ⟨?transitions, ?modes⟩
  case transitions =>
    constructor
    case nodes_perm => exact hresolved.nodes_perm
    case nodup_keys => exact hresolved.nodup_keys
    case keys_eq => exact hparts.keys_eq
    case edges_eq => exact hparts.edges_eq_mergeSort hgraph
    case sinks_eq => exact hparts.sinks_eq_map_key
    case branch =>
      intro id hne
      obtain ⟨e, he⟩ := List.exists_mem_of_ne_nil _ hne
      have hid : id ∈ nodeIds nodes := mem_nodeIds_of_mem_conditionalFrom hgraph he
      have hfilter := hparts.filter_branches hgraph.nodup_ids hid
      rw [if_neg hne] at hfilter
      exact ⟨_, hfilter, map_target_branchFrom .., nodup_keys_branchFrom ..⟩
    case branches =>
      intro b hb
      obtain ⟨id, hid, hne, rfl⟩ := hparts.mem_branches.1 hb
      exact ⟨id, hid, hne, source_branchFrom ..⟩
  case modes =>
    rintro given routed rfl q hq
    have hid : q.node.id ∈ nodeIds nodes := hparts.mem_ids.1 (List.mem_map_of_mem hq)
    have hchoices := choicesOnly_normalize given routed
    have hmode := hparts.hasMode_iff hgraph hchoices hid
    rw [← hparts.keys_eq q hq] at hmode
    exact ⟨_, (hmode _).2 rfl, fun mode hmode' => (hmode mode).1 hmode'⟩

def loopNodes : List Node := ["a", "b", "c"].map fun id => { id := id, roles := [.agent] }

/-- Two parallel edges and a loop out of the first node, and an edge to the last. -/
def loopEdges : List Edge :=
  Routing.normalize loopNodes [{ source := "b", target := "c" }, { source := "a", target := "b" },
    { source := "a", target := "a" }, { source := "a", target := "b" }] []

theorem transitions_of_plan_loop :
    ∃ p, plan loopNodes loopEdges none = .ok p ∧ Transitions loopNodes loopEdges p ∧
      ∀ q ∈ p.nodes, ∃! mode, p.HasMode q.key mode := by
  have hplan : ∃ p, plan loopNodes loopEdges none = .ok p := ⟨_, rfl⟩
  obtain ⟨p, h⟩ := hplan
  obtain ⟨htransitions, hmodes⟩ := transitions_of_plan h
  exact ⟨p, h, htransitions, hmodes loopNodes _ rfl⟩

end Plan

end AgentFlow
