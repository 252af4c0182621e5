import AgentFlow.Proofs.Editor.Runs
import AgentFlow.Proofs.Plan.Basic
import AgentFlow.Schema.Catalog

/-!
# Instances of templates

A template whose edges go between its nodes can be instantiated with any distinct identifiers
(`Template.instantiate_isInstance`): every node and every edge of the template has its counterpart,
in order, the graph is in canonical form, and it has a plan.
-/

namespace AgentFlow

open Routing Text

namespace Catalog

/-! ## What an instance is -/

/-- The node that a template's edge means by a number. -/
def numberedNode? (nodes : List Node) (i : Int) : Option Node :=
  if i < 0 then none else nodes[i.toNat]?

/-- A node stands for a template's node. -/
structure TemplateNode.IsInstance (n : TemplateNode) (m : Node) : Prop where
  label : m.label = n.label
  description : m.description = n.description
  tools : m.tools = firstSeen n.tools
  agent : .agent ∈ m.roles
  kind : n.kind ∈ m.roles
  nodup_roles : m.roles.Nodup

/-- Two identifiers are those of the nodes between which a template's edge goes. -/
def TemplateEdge.GoesBetween (nodes : List Node) (e : TemplateEdge) (ends : String × String) :
    Prop :=
  ∃ source target, numberedNode? nodes e.source = some source ∧
    numberedNode? nodes e.target = some target ∧ ends = (source.id, target.id)

/-- A graph in canonical form that has the nodes and the edges of a template, in order, under the
identifiers given by number. -/
structure Template.IsInstance (nodeId edgeId : Nat → String) (t : Template) (g : Graph) : Prop where
  name : g.name = t.name
  nodeIds : nodeIds g.nodes = (List.range t.nodes.length).map nodeId
  edgeIds : g.edges.map (·.id) = (List.range t.edges.length).map fun i => some (edgeId i)
  nodes : List.Forall₂ TemplateNode.IsInstance t.nodes g.nodes
  edges : List.Forall₂ (fun e e' => e.GoesBetween g.nodes (e'.source, e'.target)) t.edges g.edges
  conditional_iff : ∀ e ∈ g.edges, e.kind = .conditional ↔ 1 < outDegree g.edges e.source
  key : ∀ e ∈ g.edges, e.kind = .conditional → ∃ key, e.routeKey = some key ∧ trim key ≠ ""
  normal : ∀ e ∈ g.edges, e.kind = .normal → e.routeKey = none

/-! ## The range check -/

variable {t : Template} {nodeId edgeId : Nat → String}

/-- A template passes its check exactly if all its edges are in range. -/
theorem checkEdges_eq_ok_iff : Schema.checkEdges t = .ok t ↔
    ∀ e ∈ t.edges, e.inRange t.nodes.length = true := by
  have hnone : t.strayEdge? = none ↔ ∀ e ∈ t.edges, e.inRange t.nodes.length = true := by
    simp [Template.strayEdge?]
  rw [← hnone, Schema.checkEdges]
  cases t.strayEdge? with
  | none => simp
  | some e => simp [Schema.Outcome.fault]

theorem inRange_iff {count : Nat} {e : TemplateEdge} : e.inRange count = true ↔
    (0 ≤ e.source ∧ e.source < count) ∧ 0 ≤ e.target ∧ e.target < count := by
  simp [TemplateEdge.inRange, and_assoc]

/-! ## The nodes and the edges before canonical form -/

/-- The nodes of an instance with the roles that the template gives them. -/
def draftNodes (nodeId : Nat → String) (t : Template) : List Node :=
  t.nodes.mapIdx fun i n => n.instantiate (nodeId i) i

/-- The edges of an instance with the route keys that the template gives them. -/
def draftEdges (nodeId edgeId : Nat → String) (t : Template) : List Edge :=
  t.edges.mapIdx fun i e => e.instantiate nodeId (edgeId i)

theorem instantiate_eq_rebuild : t.instantiate nodeId edgeId =
    Graph.rebuild { name := t.name } (draftNodes nodeId t) (draftEdges nodeId edgeId t) [] := rfl

/-- Nodes are numbered in order. -/
theorem nodeIds_draftNodes :
    nodeIds (draftNodes nodeId t) = (List.range t.nodes.length).map nodeId := by
  refine List.ext_getElem (by simp [nodeIds, draftNodes]) fun i _ _ => ?_
  simp [nodeIds, draftNodes, TemplateNode.instantiate]

/-- So are edges. -/
theorem edgeIds_draftEdges : (draftEdges nodeId edgeId t).map (·.id) =
    (List.range t.edges.length).map fun i => some (edgeId i) := by
  refine List.ext_getElem (by simp [draftEdges]) fun i _ _ => ?_
  simp [draftEdges, TemplateEdge.instantiate]

theorem mem_nodeIds_draftNodes {i : Int} (h : 0 ≤ i ∧ i < t.nodes.length) :
    nodeId i.toNat ∈ nodeIds (draftNodes nodeId t) := by
  rw [nodeIds_draftNodes]
  exact List.mem_map_of_mem (List.mem_range.2 (by omega))

/-- The nodes and edges are fit for canonical form. -/
theorem draft_instance (ht : Schema.checkEdges t = .ok t)
    (hids : ((List.range t.nodes.length).map nodeId).Nodup) :
    Draft (draftNodes nodeId t) (draftEdges nodeId edgeId t) [] where
  nodup_ids := by rwa [nodeIds_draftNodes]
  ends := by
    intro e he
    obtain ⟨i, hi, rfl⟩ := List.mem_mapIdx.1 he
    obtain ⟨hsource, htarget⟩ := inRange_iff.1 (checkEdges_eq_ok_iff.1 ht _ (List.getElem_mem hi))
    exact ⟨mem_nodeIds_draftNodes hsource, mem_nodeIds_draftNodes htarget⟩
  nodup_tools := by
    intro n hn
    obtain ⟨i, hi, rfl⟩ := List.mem_mapIdx.1 hn
    exact nodup_firstSeen _
  pins := countP_pinnedAlone_nil_le

/-! ## What becomes of them -/

theorem isInstance_inferRoles (n : TemplateNode) (id : String) (i fanOut : Nat) :
    n.IsInstance ((n.instantiate id i).inferRoles fanOut) where
  label := rfl
  description := rfl
  tools := rfl
  agent := Node.agent_mem_inferRoles _ _
  kind := by simp [TemplateNode.instantiate]
  nodup_roles := Role.nodup_canonical _

/-- A number in range means the node that was made with it. -/
theorem exists_numberedNode? (edges : List Edge) {i : Int} (h : 0 ≤ i ∧ i < t.nodes.length) :
    ∃ m, numberedNode? (inferRoles (draftNodes nodeId t) edges) i = some m ∧
      m.id = nodeId i.toNat := by
  have hi : i.toNat < t.nodes.length := by omega
  rw [numberedNode?, if_neg (by omega), inferRoles, draftNodes, List.getElem?_map,
    List.getElem?_mapIdx, List.getElem?_eq_getElem hi]
  exact ⟨_, rfl, rfl⟩

/-- Routing leaves the ends of the edges where the template has them. -/
theorem goesBetween_normalize (ht : Schema.checkEdges t = .ok t) :
    List.Forall₂ (fun e e' => e.GoesBetween
        (inferRoles (draftNodes nodeId t)
          (normalize (draftNodes nodeId t) (draftEdges nodeId edgeId t) []))
        (e'.source, e'.target))
      t.edges (normalize (draftNodes nodeId t) (draftEdges nodeId edgeId t) []) := by
  rw [← List.forall₂_map_right_iff (f := fun e' : Edge => (e'.source, e'.target)),
    map_normalize_eq fun _ _ _ hsource htarget => by rw [hsource, htarget],
    List.forall₂_map_right_iff]
  refine forall₂_mapIdx fun i e he => ?_
  obtain ⟨hsource, htarget⟩ := inRange_iff.1
    (checkEdges_eq_ok_iff.1 ht e (List.mem_of_getElem? he))
  obtain ⟨source, hsource, hsourceId⟩ := exists_numberedNode? _ hsource
  obtain ⟨target, htarget, htargetId⟩ := exists_numberedNode? _ htarget
  refine ⟨source, target, hsource, htarget, ?_⟩
  rw [hsourceId, htargetId]
  rfl

/-- **Instances of templates.** A template that has passed its check is instantiated with any
distinct identifiers of nodes. Validation finds nothing wrong with the identifiers, the ends of the
edges, the roles or the route keys of the instance, and the instance has a plan. -/
theorem Template.instantiate_isInstance (nodeId edgeId : Nat → String) {t : Template}
    (ht : Schema.checkEdges t = .ok t) (hids : ((List.range t.nodes.length).map nodeId).Nodup) :
    t.IsInstance nodeId edgeId (t.instantiate nodeId edgeId) ∧
    (∀ entryId, ∀ issue ∈ validate (t.instantiate nodeId edgeId).nodes
      (t.instantiate nodeId edgeId).edges entryId, issue.code ∉ ruledOutCodes) ∧
    ∀ entryId, ∃ p, plan (t.instantiate nodeId edgeId).nodes
      (t.instantiate nodeId edgeId).edges entryId = .ok p := by
  have hinvariant : (t.instantiate nodeId edgeId).Invariant := by
    rw [instantiate_eq_rebuild]
    exact rebuild_invariant (draft_instance ht hids)
  refine ⟨?_, fun entryId issue => hinvariant.code_notMem,
    fun entryId => (Plan.exists_plan_iff entryId).2 hinvariant.toIntact⟩
  constructor
  case name => rfl
  case nodeIds => exact (nodeIds_inferRoles).trans nodeIds_draftNodes
  case edgeIds => exact (map_normalize_eq fun _ _ hid _ _ => hid).trans edgeIds_draftEdges
  case nodes =>
    show List.Forall₂ _ _ (inferRoles (draftNodes nodeId t) _)
    rw [inferRoles, List.forall₂_map_right_iff]
    exact forall₂_mapIdx fun i n _ => isInstance_inferRoles n (nodeId i) i _
  case edges => exact goesBetween_normalize ht
  case conditional_iff =>
    intro e he
    refine ⟨fun hkind => ?_, hinvariant.branching e he⟩
    obtain ⟨e₀, -, hrouted⟩ := exists_of_mem_route he
    have hbranching := hrouted.kind_eq_conditional_iff.1 hkind
    rw [isBranching_nil, decide_eq_true_eq, ← hrouted.source_eq] at hbranching
    exact hbranching.trans_eq (outDegree_normalize _).symm
  case key => exact hinvariant.key
  case normal => exact fun e he => (hinvariant.normal_iff e he).1

/-- Two nodes, a loop and two edges side by side, one of them with a route key to be trimmed. -/
def loopAndTwins : Template where
  id := "loop"
  name := "Loop"
  description := ""
  nodes := [⟨.tool, "Fetch", "", ["web", "web"]⟩, ⟨.router, "?", "", []⟩]
  edges := [⟨0, 0, none⟩, ⟨0, 1, none⟩, ⟨0, 1, some " go "⟩]

theorem instantiate_isInstance_loopAndTwins :
    Schema.checkEdges loopAndTwins = .ok loopAndTwins ∧
    ((List.range loopAndTwins.nodes.length).map Nat.repr).Nodup ∧
    loopAndTwins.IsInstance Nat.repr Nat.repr (loopAndTwins.instantiate Nat.repr Nat.repr) :=
  have ht : Schema.checkEdges loopAndTwins = .ok loopAndTwins := by decide
  have hids : ((List.range loopAndTwins.nodes.length).map Nat.repr).Nodup := by decide
  ⟨ht, hids, (Template.instantiate_isInstance Nat.repr Nat.repr ht hids).1⟩

/-- Every template that is shipped has passed its check. -/
example : ∀ t ∈ templates, Schema.checkEdges t = .ok t := by decide

end Catalog

end AgentFlow
