import AgentFlow.Proofs.Canonical
import AgentFlow.Proofs.Editor.Steps

/-!
# The invariant of graphs under edit

What holds of every graph that an editor makes, whatever was asked of it. A change hands its nodes
and edges over to be brought into canonical form, and canonical form gives the invariant to what is
sound enough for it (`rebuild_invariant`): so each change only has to hand over a sound `Draft`.
-/

namespace AgentFlow

open Routing Text

/-- The conditional edges that are the only one out of their source. -/
def loneConditional (edges : List Edge) : List Edge :=
  edges.filter fun e => e.isConditional && outDegree edges e.source = 1

/-- What holds of every graph under edit. -/
structure Graph.Invariant (g : Graph) : Prop extends Intact g.nodes g.edges where
  nodup_tools : ∀ n ∈ g.nodes, n.tools.Nodup
  ordered_roles : ∀ n ∈ g.nodes, n.roles.Sublist Role.order
  nodup_roles : ∀ n ∈ g.nodes, n.roles.Nodup
  signalled : ∀ n ∈ g.nodes, n.signalledRoles (outDegree g.edges n.id) ⊆ n.roles
  branching : ∀ e ∈ g.edges, 1 < outDegree g.edges e.source → e.kind = .conditional
  lone : (loneConditional g.edges).length ≤ 1
  normal_iff : ∀ e ∈ g.edges, e.kind = .normal ↔ e.routeKey = none
  key : ∀ e ∈ g.edges, e.kind = .conditional → ∃ key, e.routeKey = some key ∧ trim key ≠ ""

/-! ## Drafts -/

/-- Edges that stay conditional where they are the only one out of their source. -/
def pinnedAlone (edges : List Edge) (pinned : List String) (e : Edge) : Bool :=
  e.id.any (· ∈ pinned) && outDegree edges e.source = 1

/-- What the nodes and edges of a changed graph have to satisfy before they are brought into
canonical form. -/
structure Draft (nodes : List Node) (edges : List Edge) (pinned : List String) : Prop where
  nodup_ids : (nodeIds nodes).Nodup
  ends : ∀ e ∈ edges, e.source ∈ nodeIds nodes ∧ e.target ∈ nodeIds nodes
  nodup_tools : ∀ n ∈ nodes, n.tools.Nodup
  pins : edges.countP (pinnedAlone edges pinned) ≤ 1

variable {nodes : List Node} {edges : List Edge} {pinned : List String} {g : Graph}

/-- Where nothing is pinned, no edge is. -/
theorem countP_pinnedAlone_nil_le : edges.countP (pinnedAlone edges []) ≤ 1 := by
  have hnone : edges.countP (pinnedAlone edges []) = 0 := by
    rw [List.countP_eq_zero]
    intro e _
    cases hid : e.id <;> simp [pinnedAlone, hid]
  rw [hnone]
  exact Nat.zero_le 1

/-- Of the edges that are alone at their source, only pinned ones are conditional. -/
theorem length_loneConditional_normalize_le :
    (loneConditional (normalize nodes edges pinned)).length ≤
      edges.countP (pinnedAlone edges pinned) := by
  rw [loneConditional, ← List.countP_eq_length_filter]
  refine countP_le_of_forall₂ (fun e e' he hlone => ?_) forall₂_route
  rw [Bool.and_eq_true, decide_eq_true_eq, outDegree_normalize, he.source_eq] at hlone
  -- The edge is conditional and not because its source branches, so because it is pinned.
  obtain ⟨hconditional, hone⟩ := hlone
  have hkind : e'.kind = .conditional := by simpa [Edge.isConditional] using hconditional
  have hbranching := he.kind_eq_conditional_iff.1 hkind
  simp only [isBranching, hone, Nat.lt_irrefl, decide_false, Bool.false_or, Bool.and_eq_true]
    at hbranching
  simp [pinnedAlone, hbranching, hone]

/-- Canonical form gives the invariant to a draft. -/
theorem rebuild_invariant (h : Draft nodes edges pinned) :
    (g.rebuild nodes edges pinned).Invariant where
  nodup_ids := by
    show (nodeIds (inferRoles nodes _)).Nodup
    rw [nodeIds_inferRoles]
    exact h.nodup_ids
  ends := by
    show ∀ e' ∈ normalize nodes edges pinned, e'.source ∈ nodeIds (inferRoles nodes _) ∧
      e'.target ∈ nodeIds (inferRoles nodes _)
    intro e' he'
    obtain ⟨e, he, hrouted⟩ := exists_of_mem_route he'
    rw [nodeIds_inferRoles, hrouted.source_eq, hrouted.target_eq]
    exact h.ends e he
  nodup_tools := by
    intro m hm
    obtain ⟨n, hn, rfl⟩ := mem_inferRoles.1 hm
    exact h.nodup_tools n hn
  ordered_roles := by
    intro m hm
    obtain ⟨n, -, rfl⟩ := mem_inferRoles.1 hm
    exact Role.canonical_sublist _
  nodup_roles := by
    intro m hm
    obtain ⟨n, -, rfl⟩ := mem_inferRoles.1 hm
    exact Role.nodup_canonical _
  agents := by
    intro m hm
    obtain ⟨n, -, rfl⟩ := mem_inferRoles.1 hm
    exact n.agent_mem_inferRoles _
  signalled := by
    intro m hm
    obtain ⟨n, -, rfl⟩ := mem_inferRoles.1 hm
    rw [n.signalledRoles_inferRoles]
    exact n.signalledRoles_subset _
  branching := by
    intro e' he' hdegree
    obtain ⟨e, -, hrouted⟩ := exists_of_mem_route he'
    -- Routing moves no edge to another source, so the source branches before and after.
    have hmany : 1 < outDegree edges e.source := by
      rw [← hrouted.source_eq, ← outDegree_normalize]
      exact hdegree
    exact hrouted.kind_eq_conditional_iff.2 (by simp [isBranching, hmany])
  lone := Nat.le_trans length_loneConditional_normalize_le h.pins
  normal_iff := by
    intro e' he'
    obtain ⟨e, -, hrouted⟩ := exists_of_mem_route he'
    exact hrouted.kind_eq_normal_iff
  key := by
    intro e' he'
    obtain ⟨e, -, hrouted⟩ := exists_of_mem_route he'
    exact hrouted.exists_key

/-! ## The drafts of the changes -/

namespace Graph

/-- A change of edges hands over a draft if the edges end at nodes. -/
theorem Invariant.draft_edges (h : g.Invariant) {edges : List Edge}
    (hends : ∀ e ∈ edges, e.source ∈ nodeIds g.nodes ∧ e.target ∈ nodeIds g.nodes) :
    Draft g.nodes edges [] where
  nodup_ids := h.nodup_ids
  ends := hends
  nodup_tools := h.nodup_tools
  pins := countP_pinnedAlone_nil_le

theorem Invariant.draft (h : g.Invariant) : Draft g.nodes g.edges [] := h.draft_edges h.ends

/-- A node under a new identifier may be appended. -/
theorem Invariant.draft_append (h : g.Invariant) {n : Node} (hid : n.id ∉ nodeIds g.nodes)
    (htools : n.tools.Nodup) : Draft (g.nodes ++ [n]) g.edges [] := by
  have hids : nodeIds (g.nodes ++ [n]) = nodeIds g.nodes ++ [n.id] := List.map_append
  refine { h.draft with nodup_ids := ?_, ends := ?_, nodup_tools := ?_ }
  · rw [hids]
    exact h.nodup_ids.append (List.nodup_singleton _) (by simpa using hid)
  · intro e he
    rw [hids, List.mem_append, List.mem_append]
    exact (h.ends e he).imp Or.inl Or.inl
  · intro m hm
    rcases List.mem_append.1 hm with hm | hm
    · exact h.nodup_tools m hm
    · rw [List.mem_singleton.1 hm]
      exact htools

/-- A node that takes the place of another has its identifier. -/
theorem nodeIds_replaceNode (n : Node) : nodeIds (g.replaceNode n) = nodeIds g.nodes := by
  rw [nodeIds, replaceNode, List.map_map]
  refine List.map_congr_left fun old _ => ?_
  show (if old.id = n.id then n else old).id = old.id
  split
  · next h => exact h.symm
  · rfl

/-- A node may be edited, if its tools stay distinct. -/
theorem Invariant.draft_replaceNode (h : g.Invariant) {n : Node} (htools : n.tools.Nodup) :
    Draft (g.replaceNode n) g.edges [] := by
  refine { h.draft with nodup_ids := ?_, ends := ?_, nodup_tools := ?_ }
  · rw [nodeIds_replaceNode]
    exact h.nodup_ids
  · rw [nodeIds_replaceNode]
    exact h.ends
  · intro m hm
    obtain ⟨old, hold, rfl⟩ := List.mem_map.1 hm
    split
    · exact htools
    · exact h.nodup_tools old hold

/-- A node may be removed with its edges. -/
theorem Invariant.draft_removeNode (h : g.Invariant) (id : String) :
    Draft (g.nodes.filter (·.id ≠ id))
      (g.edges.filter fun e => e.source ≠ id && e.target ≠ id) [] where
  nodup_ids := h.nodup_ids.sublist (List.filter_sublist.map _)
  ends := by
    intro e he
    simp only [List.mem_filter, Bool.and_eq_true, decide_eq_true_eq] at he
    obtain ⟨he, hsource, htarget⟩ := he
    -- An end that stays is the end of a node that stays.
    have hstays : ∀ x ∈ nodeIds g.nodes, x ≠ id → x ∈ nodeIds (g.nodes.filter (·.id ≠ id)) := by
      intro x hx hne
      obtain ⟨n, hn, rfl⟩ := mem_nodeIds.1 hx
      exact id_mem_nodeIds (List.mem_filter.2 ⟨hn, by simpa using hne⟩)
    exact ⟨hstays _ (h.ends e he).1 hsource, hstays _ (h.ends e he).2 htarget⟩
  nodup_tools := fun n hn => h.nodup_tools n (List.mem_filter.1 hn).1
  pins := countP_pinnedAlone_nil_le

/-- All edges with the identifier are the new one. -/
theorem eq_of_mem_replaceEdge {e e' : Edge} (h : e' ∈ g.replaceEdge e) (hid : e'.id = e.id) :
    e' = e := by
  obtain ⟨old, -, rfl⟩ := List.mem_map.1 h
  split at hid
  · next hold => rw [if_pos hold]
  · next hold => exact absurd hid hold

/-- All edges with the replaced edge's identifier become that edge, so where it is alone at its
source it is the only one that may be pinned. -/
theorem countP_pinnedAlone_replaceEdge_le {e : Edge} (hpinned : ∀ id ∈ pinned, e.id = some id) :
    (g.replaceEdge e).countP (pinnedAlone (g.replaceEdge e) pinned) ≤ 1 := by
  have hself : ∀ e' ∈ g.replaceEdge e, pinnedAlone (g.replaceEdge e) pinned e' = true →
      e' = e ∧ outDegree (g.replaceEdge e) e.source = 1 := by
    intro e' he' hpin
    rw [pinnedAlone, Bool.and_eq_true, Option.any_eq_true, decide_eq_true_eq] at hpin
    obtain ⟨⟨id, hid, hmem⟩, hone⟩ := hpin
    have heq : e' = e :=
      eq_of_mem_replaceEdge he' (by rw [hid, hpinned id (by simpa using hmem)])
    exact ⟨heq, heq ▸ hone⟩
  -- If the edge is alone at its source, it is one; if not, none of its copies counts.
  by_cases hone : outDegree (g.replaceEdge e) e.source = 1
  · rw [← hone, outDegree]
    refine List.countP_mono_left fun e' he' hpin => ?_
    simp [(hself e' he' hpin).1]
  · rw [List.countP_eq_zero.2 fun e' he' hpin => hone (hself e' he' hpin).2]
    exact Nat.zero_le 1

/-- A change of an edge pins nothing else. -/
theorem id_eq_of_mem_pin {e : Edge} {id pin : String} {p : Prop} [Decidable p]
    (hid : e.id = some id) (h : pin ∈ if p then [id] else []) : e.id = some pin := by
  split at h
  · rw [List.mem_singleton.1 h]
    exact hid
  · cases h

/-- An edge may be edited, and it alone pinned. -/
theorem Invariant.draft_replaceEdge (h : g.Invariant) {e : Edge}
    (hends : e.source ∈ nodeIds g.nodes ∧ e.target ∈ nodeIds g.nodes)
    (hpinned : ∀ id ∈ pinned, e.id = some id) : Draft g.nodes (g.replaceEdge e) pinned where
  nodup_ids := h.nodup_ids
  ends := by
    intro e' he'
    obtain ⟨old, hold, rfl⟩ := List.mem_map.1 he'
    split
    · exact hends
    · exact h.ends old hold
  nodup_tools := h.nodup_tools
  pins := countP_pinnedAlone_replaceEdge_le hpinned

end Graph

end AgentFlow
