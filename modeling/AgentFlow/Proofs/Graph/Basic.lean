import AgentFlow.Graph.Basic
import Mathlib.Data.List.Nodup

/-!
# Identifiers, look-ups and degrees

How the look-ups of a graph relate to the list of its identifiers, and what the out-degree of a node
depends on.
-/

namespace AgentFlow

/-! ## Repetitions -/

/-- Nothing is reported as repeated exactly if the list has no duplicates. -/
theorem repeated_eq_nil_iff {α : Type} [DecidableEq α] {as : List α} :
    repeated as = [] ↔ as.Nodup := by
  rw [List.nodup_iff_count_le_one, repeated, tally, List.filter_eq_nil_iff]
  simp only [List.mem_map, mem_firstSeen, forall_exists_index, and_imp,
    forall_apply_eq_imp_iff₂, decide_eq_true_eq, Nat.not_lt]
  refine ⟨fun h a => ?_, fun h a _ => h a⟩
  by_cases ha : a ∈ as
  · exact h a ha
  · rw [List.count_eq_zero_of_not_mem ha]
    exact Nat.zero_le 1

/-- What is reported as repeated is there. -/
theorem mem_of_mem_repeated {α : Type} [DecidableEq α] {as : List α} {entry : α × Nat}
    (h : entry ∈ repeated as) : entry.1 ∈ as := by
  obtain ⟨a, ha, rfl⟩ := List.mem_map.1 (List.mem_filter.1 h).1
  exact mem_firstSeen.1 ha

/-! ## Nodes by their identifiers -/

variable {nodes : List Node} {id : String} {n : Node}

@[simp] theorem mem_nodeIds : id ∈ nodeIds nodes ↔ ∃ n ∈ nodes, n.id = id := List.mem_map

/-- The identifier of a node is among those of the graph. -/
theorem id_mem_nodeIds (h : n ∈ nodes) : n.id ∈ nodeIds nodes := mem_nodeIds.2 ⟨n, h, rfl⟩

theorem mem_of_lastNode? (h : lastNode? nodes id = some n) : n ∈ nodes ∧ n.id = id := by
  refine ⟨List.mem_reverse.1 (List.mem_of_find?_eq_some h), ?_⟩
  simpa using List.find?_some h

/-- No node is found exactly if none has the identifier. -/
theorem lastNode?_eq_none_iff : lastNode? nodes id = none ↔ id ∉ nodeIds nodes := by
  simp [lastNode?]

variable {g : Graph}

theorem mem_of_node? (h : g.node? id = some n) : n ∈ g.nodes ∧ n.id = id := by
  refine ⟨List.mem_of_find?_eq_some h, ?_⟩
  simpa using List.find?_some h

theorem node?_eq_none_iff : g.node? id = none ↔ id ∉ nodeIds g.nodes := by
  simp [Graph.node?]

theorem mem_of_edge? {e : Edge} (h : g.edge? id = some e) : e ∈ g.edges ∧ e.id = some id := by
  refine ⟨List.mem_of_find?_eq_some h, ?_⟩
  simpa using List.find?_some h

/-! ## Degrees -/

/-- The out-degree counts how often the node is a source. -/
theorem outDegree_eq_count (edges : List Edge) (id : String) :
    outDegree edges id = (edges.map (·.source)).count id := by
  rw [outDegree, List.count_eq_countP, List.countP_map]
  exact List.countP_congr fun e _ => by simp

/-- The out-degree depends on the sources of the edges only. -/
theorem outDegree_congr {edges edges' : List Edge}
    (h : edges'.map (·.source) = edges.map (·.source)) (id : String) :
    outDegree edges' id = outDegree edges id := by
  rw [outDegree_eq_count, h, outDegree_eq_count]

/-- Edges that are dropped do not add to an out-degree. -/
theorem outDegree_filter_le (keep : Edge → Bool) (edges : List Edge) (id : String) :
    outDegree (edges.filter keep) id ≤ outDegree edges id :=
  List.filter_sublist.countP_le

/-- An edge that is added counts for its source. -/
theorem outDegree_concat (edges : List Edge) (e : Edge) (id : String) :
    outDegree (edges ++ [e]) id = outDegree edges id + if e.source = id then 1 else 0 := by
  rw [outDegree, List.countP_append, List.countP_singleton, outDegree]
  simp

/-! ## Intact graphs -/

/-- Identifiers are distinct, edges end at nodes, and nodes are agents. -/
structure Intact (nodes : List Node) (edges : List Edge) : Prop where
  nodup_ids : (nodeIds nodes).Nodup
  ends : ∀ e ∈ edges, e.source ∈ nodeIds nodes ∧ e.target ∈ nodeIds nodes
  agents : ∀ n ∈ nodes, Role.agent ∈ n.roles

end AgentFlow
