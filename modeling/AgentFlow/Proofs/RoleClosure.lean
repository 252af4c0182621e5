import AgentFlow.Canonical
import AgentFlow.Proofs.RoleSignals
import AgentFlow.Proofs.Routing

/-!
# Inference as a closure

Inference adds to the roles of each node just those that the graph shows, and changes nothing else
(`forall₂_isInferred`). To infer twice is to infer once, and more never shows less
(`forall₂_inferRoles_mono`). Routing looks at no role (`normalize_inferRoles`), and inference at no
kind and no key (`inferRoles_normalize`), so it does not matter which of them comes first
(`inferRoles_isClosure`).
-/

namespace AgentFlow

open Routing

variable {nodes nodes' : List Node} {edges edges' : List Edge} {pinned : List String} {n n' : Node}

/-! ## What is added -/

/-- A node, and the node with the roles that the edges show of it added to its own: no other field
changes, and the roles are in the canonical order, each once. -/
structure Node.IsInferred (edges : List Edge) (n m : Node) : Prop where
  eq_with_roles : m = { n with roles := m.roles }
  ordered : m.roles.Sublist Role.order
  mem_roles_iff : ∀ role,
    role ∈ m.roles ↔ role ∈ n.roles ∨ role ∈ n.signalledRoles (outDegree edges n.id)

theorem Node.isInferred_inferRoles (edges : List Edge) (n : Node) :
    n.IsInferred edges (n.inferRoles (outDegree edges n.id)) where
  eq_with_roles := rfl
  ordered := Role.canonical_sublist _
  mem_roles_iff := fun role => by simp

/-- Node by node, inference adds what the graph shows and nothing else. -/
theorem forall₂_isInferred (nodes : List Node) (edges : List Edge) :
    List.Forall₂ (Node.IsInferred edges) nodes (inferRoles nodes edges) := by
  rw [inferRoles, List.forall₂_map_right_iff, List.forall₂_same]
  exact fun n _ => n.isInferred_inferRoles edges

/-! ## More never shows less -/

/-- A node, and the same one with more tools and more roles of its own. -/
structure Node.Grows (n n' : Node) : Prop where
  id_eq : n'.id = n.id
  label_eq : n'.label = n.label
  description_eq : n'.description = n.description
  tools_subset : n.tools ⊆ n'.tools
  roles_subset : n.roles ⊆ n'.roles

namespace Node.Grows

variable (h : n.Grows n')

include h

/-- Tools that tell of a memory stay, and the texts of the node are the same. -/
theorem tellsOfMemory (hmemory : n.tellsOfMemory = true) : n'.tellsOfMemory = true := by
  rw [Node.tellsOfMemory, Bool.or_eq_true] at hmemory ⊢
  refine hmemory.imp (fun hprose => ?_) fun htools => ?_
  · rwa [Node.prose, h.label_eq, h.description_eq]
  · obtain ⟨tool, htool, hstores⟩ := List.any_eq_true.1 htools
    exact List.any_eq_true.2 ⟨tool, h.tools_subset htool, hstores⟩

/-- A node that has grown shows every role that it showed before. -/
theorem signalledRoles_subset (fanOut : Nat) :
    n.signalledRoles fanOut ⊆ n'.signalledRoles fanOut := by
  intro role hrole
  rw [signalledRoles, List.mem_filter] at hrole ⊢
  refine ⟨hrole.1, ?_⟩
  cases role with
  | agent => rfl
  | tool =>
    have hne : n.tools ≠ [] := by simpa [signals] using hrole.2
    obtain ⟨tool, htool⟩ := List.exists_mem_of_ne_nil n.tools hne
    simpa [signals] using List.ne_nil_of_mem (h.tools_subset htool)
  | router => exact hrole.2
  | memory => exact h.tellsOfMemory hrole.2

/-- A node that has grown, with no fewer edges out of it, has every role that it had. -/
theorem inferRoles_subset {fanOut fanOut' : Nat} (hle : fanOut ≤ fanOut') :
    (n.inferRoles fanOut).roles ⊆ (n'.inferRoles fanOut').roles := by
  have hsignalled : n.signalledRoles fanOut ⊆ n'.signalledRoles fanOut' :=
    fun _ hrole => n'.signalledRoles_mono fanOut' hle (h.signalledRoles_subset fanOut hrole)
  intro role hrole
  rw [inferRoles_roles, Role.mem_canonical, List.mem_append] at hrole ⊢
  exact hrole.imp (@h.roles_subset role) (@hsignalled role)

end Node.Grows

/-- Nodes with more roles or tools, or with more edges out of them, have no role less. -/
theorem forall₂_inferRoles_mono (hnodes : List.Forall₂ Node.Grows nodes nodes')
    (hedges : ∀ n ∈ nodes, outDegree edges n.id ≤ outDegree edges' n.id) :
    List.Forall₂ (fun m m' => m.roles ⊆ m'.roles)
      (inferRoles nodes edges) (inferRoles nodes' edges') := by
  rw [inferRoles, inferRoles, List.forall₂_map_left_iff, List.forall₂_map_right_iff]
  refine forall₂_of_mem (fun n hn n' h => h.inferRoles_subset ?_) hnodes
  -- The out-degrees are counted at the same identifier.
  rw [h.id_eq]
  exact hedges n hn

/-! ## Routing and inference -/

/-- Routing looks at the identifiers and the labels of nodes only. -/
theorem Routing.normalize_congr_nodes (hids : nodeIds nodes' = nodeIds nodes)
    (hlabels : labelOf? nodes' = labelOf? nodes) :
    normalize nodes' edges pinned = normalize nodes edges pinned := by
  have hbranching : isBranching nodes' edges pinned = isBranching nodes edges pinned := by
    funext e
    rw [isBranching, hids, isBranching]
  show route (isBranching nodes' edges pinned) (labelOf? nodes') 0 _ edges = _
  rw [hbranching, hlabels]
  rfl

/-- Inference keeps the labels. -/
theorem labelOf?_inferRoles : labelOf? (inferRoles nodes edges) = labelOf? nodes := by
  funext id
  rw [labelOf?, lastNode?, inferRoles, ← List.map_reverse, List.find?_map, Option.map_map]
  rfl

/-- Routing makes the same of the edges whether roles have been inferred or not. -/
@[simp] theorem Routing.normalize_inferRoles :
    normalize (inferRoles nodes edges') edges pinned = normalize nodes edges pinned :=
  normalize_congr_nodes nodeIds_inferRoles labelOf?_inferRoles

/-- Inference looks at the out-degrees only. -/
theorem inferRoles_congr (h : ∀ n ∈ nodes, outDegree edges' n.id = outDegree edges n.id) :
    inferRoles nodes edges' = inferRoles nodes edges :=
  List.map_congr_left fun n hn => by rw [h n hn]

/-- Inference makes the same of the nodes whether the edges have been routed or not. -/
@[simp] theorem inferRoles_normalize :
    inferRoles nodes (normalize nodes' edges pinned) = inferRoles nodes edges :=
  inferRoles_congr fun _ _ => outDegree_normalize _

/-! ## The closure -/

/-- Inference is a closure: it adds to each node what the graph shows and nothing else, it adds
nothing the second time, and it never takes a role away where there is more to begin with. -/
structure IsRoleClosure (nodes : List Node) (edges : List Edge) : Prop where
  inferred : List.Forall₂ (Node.IsInferred edges) nodes (inferRoles nodes edges)
  idem : inferRoles (inferRoles nodes edges) edges = inferRoles nodes edges
  mono : ∀ nodes' edges', List.Forall₂ Node.Grows nodes nodes' →
    (∀ n ∈ nodes, outDegree edges n.id ≤ outDegree edges' n.id) →
      List.Forall₂ (fun m m' => m.roles ⊆ m'.roles)
        (inferRoles nodes edges) (inferRoles nodes' edges')

/-- **Inference is a closure that commutes with routing**: canonical form, for which edges are
routed before roles are inferred, is also reached by inferring the roles first. -/
theorem inferRoles_isClosure (nodes : List Node) (edges : List Edge) (pinned : List String) :
    IsRoleClosure nodes edges ∧
      canonicalize nodes edges pinned =
        (inferRoles nodes edges, normalize (inferRoles nodes edges) edges pinned) := by
  refine ⟨?_, ?_⟩
  · exact {
      inferred := forall₂_isInferred nodes edges
      idem := inferRoles_idem
      mono := fun _ _ => forall₂_inferRoles_mono }
  · show (inferRoles nodes (normalize nodes edges pinned), normalize nodes edges pinned) = _
    rw [inferRoles_normalize, normalize_inferRoles]

/-- A tool and a second edge make an agent a tool and a router as well. -/
theorem inferRoles_isClosure_fork :
    (inferRoles [{ id := "a" }] [{ source := "a", target := "b" }]).map (·.roles) = [[.agent]] ∧
    (inferRoles [{ id := "a", tools := ["search"] }]
      [{ source := "a", target := "b" }, { source := "a", target := "c" }]).map (·.roles) =
        [[.agent, .tool, .router]] ∧
    List.Forall₂ (fun m m' => m.roles ⊆ m'.roles)
      (inferRoles [{ id := "a" }] [{ source := "a", target := "b" }])
      (inferRoles [{ id := "a", tools := ["search"] }]
        [{ source := "a", target := "b" }, { source := "a", target := "c" }]) := by
  refine ⟨by decide +kernel, by decide +kernel, ?_⟩
  exact (inferRoles_isClosure _ _ []).1.mono _ _ (.cons ⟨rfl, rfl, rfl, by simp, by simp⟩ .nil)
    (by decide)

end AgentFlow
