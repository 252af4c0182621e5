import AgentFlow.Proofs.Editor.Rerouting

/-!
# Taking things out of a graph

Every removal brings the graph into canonical form again: where a fork loses all edges but one, that
one becomes normal and loses its key. If the graph was in canonical form before, it makes no
difference when this happens. What is left depends only on which edges have gone
(`foldlM_removeEdge`), so a node may be removed at once or after its edges, which may go in any
order (`removeNode_of_removeEdge`). And removing an edge that has just been connected leaves the
graph as it was before, but for the role of a router (`removeEdge_connect`).
-/

namespace AgentFlow

open Routing

/-! ## Edges that go -/

/-- The edge starts or ends at the node. -/
def Edge.isIncident (id : String) (e : Edge) : Bool := e.source = id || e.target = id

/-- The edge has none of the identifiers. -/
def Edge.outlasts (gone : List String) (e : Edge) : Bool := e.id.all (· ∉ gone)

namespace Edge

variable {gone : List String} {id : String} {e : Edge}

/-- An edge outlasts the others if it has none of their identifiers. -/
theorem outlasts_iff : e.outlasts gone = true ↔ ∀ id ∈ gone, e.id ≠ some id := by
  rw [outlasts]
  cases e.id with
  | none => simp
  | some id =>
    rw [Option.all_some, decide_eq_true_eq]
    refine ⟨fun hgone id' hmem heq => hgone ?_, fun hall hmem => hall id hmem rfl⟩
    rwa [Option.some.inj heq]

/-- Identifiers may go one by one. -/
theorem outlasts_concat :
    e.outlasts (gone ++ [id]) = (decide (e.id ≠ some id) && e.outlasts gone) := by
  rw [Bool.eq_iff_iff, Bool.and_eq_true, decide_eq_true_eq, outlasts_iff, outlasts_iff,
    List.forall_mem_append, List.forall_mem_singleton, and_comm]

end Edge

namespace Graph

variable {g : Graph} {id : String} {gone : List String}

def withoutEdges (g : Graph) (gone : List String) : Graph :=
  { g with edges := normalize g.nodes (g.edges.filter (·.outlasts gone)) [] }

/-- If nothing has gone, a graph in canonical form is left as it is. -/
theorem withoutEdges_nil (h : IsCanonical g.nodes g.edges) : g.withoutEdges [] = g := by
  have hall : g.edges.filter (·.outlasts []) = g.edges :=
    List.filter_eq_self.2 fun e _ => Edge.outlasts_iff.2 (by simp)
  rw [withoutEdges, hall, h.normalize_eq_self]

/-- The identifiers that are left are those that have not gone. -/
theorem mem_edgeIds_withoutEdges :
    id ∈ edgeIds (g.withoutEdges gone).edges ↔ id ∈ edgeIds g.edges ∧ id ∉ gone := by
  show id ∈ edgeIds (normalize _ _ _) ↔ _
  rw [edgeIds_normalize, mem_edgeIds, mem_edgeIds, ← exists_and_right]
  refine exists_congr fun e => ?_
  rw [List.mem_filter, and_assoc, and_assoc]
  refine and_congr_right fun _ => ?_
  rw [and_comm]
  refine and_congr_right fun hid => ?_
  rw [Edge.outlasts, hid, Option.all_some, decide_eq_true_eq]

/-- What a change drops of the edges that are left, it may drop of all at once. -/
theorem rebuild_withoutEdges (h : IsCanonical g.nodes g.edges) (op : Operation)
    (nodes : List Node) :
    (g.withoutEdges gone).rebuild nodes ((g.withoutEdges gone).edges.filter op.keepsEdge) [] =
      g.rebuild nodes (g.edges.filter fun e => op.keepsEdge e && e.outlasts gone) [] := by
  -- An edge that stays conditional had a key from the start, since the graph was in canonical form.
  have hkeys : ∀ e ∈ (g.edges.filter (·.outlasts gone)).filter op.keepsEdge,
      1 < outDegree ((g.edges.filter (·.outlasts gone)).filter op.keepsEdge) e.source →
        explicitKey e ≠ "" := by
    intro e he hmany
    rw [List.filter_filter] at he hmany
    exact (h.explicitKey_eq (List.mem_filter.1 he).1
      (Nat.lt_of_lt_of_le hmany (outDegree_filter_le _ _ _))).1
  have hedges : normalize nodes ((g.withoutEdges gone).edges.filter op.keepsEdge) [] =
      normalize nodes (g.edges.filter fun e => op.keepsEdge e && e.outlasts gone) [] := by
    rw [← List.filter_filter]
    exact normalize_filter_normalize (fun _ _ => Operation.keepsEdge_congr) hkeys
  rw [rebuild_eq, rebuild_eq, hedges]
  rfl

/-! ## Removing edges one after the other -/

/-- One more edge goes. -/
theorem removeEdge_withoutEdges (h : IsCanonical g.nodes g.edges) (hid : id ∈ edgeIds g.edges)
    (hnew : id ∉ gone) :
    (g.withoutEdges gone).removeEdge id = .ok (g.withoutEdges (gone ++ [id])) := by
  have hthere : ∃ e, (g.withoutEdges gone).edge? id = some e :=
    exists_edge?_iff.2 (mem_edgeIds_withoutEdges.2 ⟨hid, hnew⟩)
  -- Fewer edges show no new roles, and roles that are there stay.
  have hnodes : inferRoles g.nodes
      (normalize g.nodes (g.edges.filter (·.outlasts (gone ++ [id]))) []) = g.nodes :=
    inferRoles_eq_self_of_le (isCanonical_iff.1 h).2 fun x => by
      rw [outDegree_normalize]
      exact outDegree_filter_le _ _ _
  have hkept : (g.edges.filter fun e => decide (e.id ≠ some id) && e.outlasts gone) =
      g.edges.filter (·.outlasts (gone ++ [id])) :=
    List.filter_congr fun _ _ => Edge.outlasts_concat.symm
  have hrebuild : g.withoutEdges (gone ++ [id]) = (g.withoutEdges gone).rebuild g.nodes
      ((g.withoutEdges gone).edges.filter (·.id ≠ some id)) [] :=
    calc g.withoutEdges (gone ++ [id])
        = g.rebuild g.nodes (g.edges.filter (·.outlasts (gone ++ [id]))) [] := by
          rw [rebuild_eq, hnodes, withoutEdges]
      _ = g.rebuild g.nodes
            (g.edges.filter fun e => decide (e.id ≠ some id) && e.outlasts gone) [] := by
          rw [hkept]
      _ = (g.withoutEdges gone).rebuild g.nodes
            ((g.withoutEdges gone).edges.filter (·.id ≠ some id)) [] :=
          (rebuild_withoutEdges h (.removeEdge id) g.nodes).symm
  exact removeEdge_eq_ok_iff.2 ⟨hthere, hrebuild⟩

/-- Edges of a graph in canonical form may be removed in any order: what is left depends only on
which have gone. -/
theorem foldlM_removeEdge (h : IsCanonical g.nodes g.edges) {ids : List String}
    (hnodup : (gone ++ ids).Nodup) (hids : ∀ id ∈ ids, id ∈ edgeIds g.edges) :
    ids.foldlM removeEdge (g.withoutEdges gone) = .ok (g.withoutEdges (gone ++ ids)) := by
  induction ids generalizing gone with
  | nil => simp [pure, Except.pure]
  | cons id rest ih =>
    have hnew : id ∉ gone := fun hmem =>
      (List.nodup_append.1 hnodup).2.2 id hmem id List.mem_cons_self rfl
    rw [List.append_cons] at hnodup ⊢
    rw [List.foldlM_cons, removeEdge_withoutEdges h (hids id List.mem_cons_self) hnew]
    exact ih hnodup fun id' hmem => hids id' (List.mem_cons_of_mem _ hmem)

/-! ## Removing a node after its edges -/

/-- A node takes its edges with it, whichever of them have gone before. -/
theorem removeNode_withoutEdges (h : IsCanonical g.nodes g.edges)
    (hgone : ∀ e ∈ g.edges, e.outlasts gone = false → e.isIncident id = true) :
    (g.withoutEdges gone).removeNode id = g.removeNode id := by
  -- The edges that have gone before would have gone with the node.
  have hkept : (g.edges.filter fun e =>
        (decide (e.source ≠ id) && decide (e.target ≠ id)) && e.outlasts gone) =
      g.edges.filter fun e => decide (e.source ≠ id) && decide (e.target ≠ id) := by
    refine List.filter_congr fun e he => ?_
    cases hlasts : e.outlasts gone with
    | true => rw [Bool.and_true]
    | false =>
      have hincident := hgone e he hlasts
      rw [Bool.and_false]
      simp only [Edge.isIncident, Bool.or_eq_true, decide_eq_true_eq] at hincident
      simpa [or_iff_not_imp_left] using hincident
  have hrebuild : (g.withoutEdges gone).rebuild (g.nodes.filter (·.id ≠ id))
      ((g.withoutEdges gone).edges.filter fun e => e.source ≠ id && e.target ≠ id) [] =
        g.rebuild (g.nodes.filter (·.id ≠ id))
          (g.edges.filter fun e => e.source ≠ id && e.target ≠ id) [] := by
    rw [← hkept]
    exact rebuild_withoutEdges h (.removeNode id) _
  exact congrArg (fun g' => g.requireNode id >>= fun _ => .ok g') hrebuild

def incidentIds (g : Graph) (id : String) : List String :=
  edgeIds (g.edges.filter (·.isIncident id))

/-- Only edges at the node have gone. -/
theorem isIncident_of_outlasts_eq_false (hedges : (edgeIds g.edges).Nodup) {ids : List String}
    (hids : ids ⊆ g.incidentIds id) {e : Edge} (he : e ∈ g.edges)
    (hgone : e.outlasts ids = false) : e.isIncident id = true := by
  have hnot : ¬ ∀ id' ∈ ids, e.id ≠ some id' := fun h => by
    rw [Edge.outlasts_iff.2 h] at hgone
    cases hgone
  push Not at hnot
  obtain ⟨id', hmem, hid'⟩ := hnot
  obtain ⟨e', he', heid'⟩ := mem_edgeIds.1 (hids hmem)
  obtain ⟨hmem', hincident⟩ := List.mem_filter.1 he'
  -- The edge with the identifier is the one that is known to be incident.
  have heq : some e' = some e :=
    (edge?_of_mem hedges hmem' heid').symm.trans (edge?_of_mem hedges he hid')
  rwa [Option.some.inj heq] at hincident

/-- **Removing a node after its edges is removing it at once**, in whatever order its edges are
removed: none of the removals fails, and they leave the same graph. Edges without identifiers, which
cannot be removed by themselves, go with the node. -/
theorem removeNode_of_removeEdge (hcanonical : IsCanonical g.nodes g.edges)
    (hedges : (edgeIds g.edges).Nodup) (hid : id ∈ nodeIds g.nodes) {ids : List String}
    (hids : ids.Perm (g.incidentIds id)) :
    ∃ g', g.removeNode id = .ok g' ∧
      (ids.foldlM removeEdge g >>= fun g' => g'.removeNode id) = .ok g' := by
  have hincident : (g.incidentIds id).Sublist (edgeIds g.edges) := List.filter_sublist.filterMap _
  have hnodup : ([] ++ ids).Nodup := hids.nodup_iff.2 (hedges.sublist hincident)
  have hedgesGone : ids.foldlM removeEdge g = .ok (g.withoutEdges ids) :=
    calc ids.foldlM removeEdge g
        = ids.foldlM removeEdge (g.withoutEdges []) := by rw [withoutEdges_nil hcanonical]
      _ = .ok (g.withoutEdges ids) :=
        foldlM_removeEdge hcanonical hnodup fun id' hmem =>
          hincident.subset (hids.subset hmem)
  have hnodeGone : (g.withoutEdges ids).removeNode id = g.removeNode id :=
    removeNode_withoutEdges hcanonical fun e he =>
      isIncident_of_outlasts_eq_false hedges hids.subset he
  refine ⟨_, removeNode_eq_ok_iff.2 ⟨hid, rfl⟩, ?_⟩
  rw [hedgesGone]
  exact hnodeGone.trans (removeNode_eq_ok_iff.2 ⟨hid, rfl⟩)

/-- Two forks, one of them with a loop. -/
def loopGraph : Graph where
  nodes := [{ id := "a", roles := [.agent, .router] }, { id := "b", roles := [.agent, .router] },
    { id := "c", roles := [.agent] }]
  edges := [
    { id := some "aa", source := "a", target := "a", kind := .conditional,
      routeKey := some "again" },
    { id := some "ab", source := "a", target := "b", kind := .conditional, routeKey := some "on" },
    { id := some "ba", source := "b", target := "a", kind := .conditional,
      routeKey := some "back" },
    { id := some "bc", source := "b", target := "c", kind := .conditional,
      routeKey := some "done" },
    { id := some "ca", source := "c", target := "a" }]

/-- With the edges of `a`, both forks go: the edge that is left becomes normal and loses its key. -/
theorem removeNode_of_removeEdge_loop : ∃ g', loopGraph.removeNode "a" = .ok g' ∧
    (["ba", "aa", "ca", "ab"].foldlM removeEdge loopGraph >>= fun g' => g'.removeNode "a") =
      .ok g' ∧
    g'.edges = [{ id := some "bc", source := "b", target := "c" }] := by
  have hcanonical : IsCanonical loopGraph.nodes loopGraph.edges := by decide +kernel
  obtain ⟨g', hremove, hrun⟩ : ∃ g', loopGraph.removeNode "a" = .ok g' ∧
      (["ba", "aa", "ca", "ab"].foldlM removeEdge loopGraph >>= fun g' => g'.removeNode "a") =
        .ok g' :=
    removeNode_of_removeEdge hcanonical (by decide) (by decide) (by decide)
  have hedges : (loopGraph.removeNode "a").toOption.map (·.edges) =
      some [{ id := some "bc", source := "b", target := "c" }] := by
    decide +kernel
  rw [hremove] at hedges
  exact ⟨g', hremove, hrun, Option.some.inj hedges⟩

/-! ## Taking a connection back -/

variable {source target : String}

/-- The edge that connects two nodes, as it is before it is routed. -/
def connection (source target id : String) : Edge :=
  { id := some id, source := source, target := target }

/-- The graph with two nodes connected. -/
def withConnection (g : Graph) (source target id : String) : Graph :=
  g.rebuild g.nodes (g.edges ++ [connection source target id]) []

/-- The identifier of the new edge comes last. -/
theorem edgeIds_withConnection :
    edgeIds (g.withConnection source target id).edges = edgeIds g.edges ++ [id] := by
  rw [withConnection, rebuild_eq, edgeIds_normalize, edgeIds_append]
  rfl

/-- The source has one more edge. -/
theorem outDegree_withConnection (x : String) :
    outDegree (g.withConnection source target id).edges x =
      outDegree g.edges x + if source = x then 1 else 0 := by
  rw [withConnection, rebuild_eq, outDegree_normalize, outDegree_concat]
  rfl

/-- Without the new edge, the edges are those from before. -/
theorem filter_concat_connection (hid : id ∉ edgeIds g.edges) :
    (g.edges ++ [connection source target id]).filter (Operation.removeEdge id).keepsEdge =
      g.edges := by
  have hothers : g.edges.filter (Operation.removeEdge id).keepsEdge = g.edges :=
    List.filter_eq_self.2 fun e he => decide_eq_true fun heid => hid (mem_edgeIds.2 ⟨e, he, heid⟩)
  rw [List.filter_append, hothers]
  simp [connection, Operation.keepsEdge]

/-- What the new edge did to the others is undone when it goes: one that it made conditional is
normal again, and those that were conditional before have kept their keys. -/
theorem normalize_filter_withConnection (h : IsCanonical g.nodes g.edges)
    (hid : id ∉ edgeIds g.edges) (nodes : List Node) :
    normalize nodes ((g.withConnection source target id).edges.filter
      (Operation.removeEdge id).keepsEdge) [] = g.edges := by
  have hkept : (g.edges ++ [connection source target id]).filter
      (Operation.removeEdge id).keepsEdge = g.edges := filter_concat_connection hid
  rw [withConnection, rebuild_eq,
    normalize_filter_normalize (fun _ _ => Operation.keepsEdge_congr), hkept]
  · exact h.normalize_eq_self nodes
  · rw [hkept]
    exact fun e he hmany => (h.explicitKey_eq he hmany).1

/-- What the new edge showed stays, and it showed something only where it was the second. -/
theorem inferRoles_withConnection (h : IsCanonical g.nodes g.edges) :
    inferRoles (g.withConnection source target id).nodes g.edges =
      g.nodes.map fun n => if n.id = source ∧ outDegree g.edges source = 1 then
        { n with roles := Role.canonical (.router :: n.roles) } else n := by
  have hstay : inferRoles (g.withConnection source target id).nodes g.edges =
      (g.withConnection source target id).nodes :=
    inferRoles_eq_self_of_le (fun _ => inferRoles_of_mem_inferRoles) fun x => by
      show _ ≤ outDegree (g.withConnection source target id).edges x
      rw [outDegree_withConnection]
      exact Nat.le_add_right _ _
  rw [hstay]
  show inferRoles g.nodes (g.withConnection source target id).edges = _
  refine List.map_congr_left fun n hn => ?_
  have hinferred := (isCanonical_iff.1 h).2 n hn
  rw [outDegree_withConnection]
  -- Only the source has one edge more, and it becomes a router if that is the second.
  by_cases hsource : n.id = source
  · subst hsource
    simpa using Node.inferRoles_succ hinferred
  · rw [if_neg (Ne.symm hsource), Nat.add_zero, hinferred, if_neg fun hcond => hsource hcond.1]

/-- **Removing an edge that has just been connected** gives back the edges as they were, with their
kinds and keys and in their order, and the nodes as they were, except that a source which had one
edge stays a router. -/
theorem removeEdge_connect (hcanonical : IsCanonical g.nodes g.edges)
    (hsource : source ∈ nodeIds g.nodes) (htarget : target ∈ nodeIds g.nodes)
    (hfree : ∀ e ∈ g.edges, e.source = source → e.target ≠ target) (hid : id ∉ edgeIds g.edges) :
    ∃ g', g.connect source target id = .ok g' ∧ g'.removeEdge id = .ok { g with
      nodes := g.nodes.map fun n => if n.id = source ∧ outDegree g.edges source = 1 then
        { n with roles := Role.canonical (.router :: n.roles) } else n } := by
  have hconnected : g.isConnected source target = false := by
    simpa [isConnected] using hfree
  have hconnect : g.connect source target id = .ok (g.withConnection source target id) := by
    refine connect_eq_ok_iff.2 ⟨hsource, htarget, ?_⟩
    rw [hconnected]
    rfl
  have hthere : ∃ e, (g.withConnection source target id).edge? id = some e := by
    rw [exists_edge?_iff, edgeIds_withConnection]
    simp
  have hedges : normalize (g.withConnection source target id).nodes
      ((g.withConnection source target id).edges.filter (·.id ≠ some id)) [] = g.edges :=
    normalize_filter_withConnection hcanonical hid _
  refine ⟨_, hconnect, removeEdge_eq_ok_iff.2 ⟨hthere, ?_⟩⟩
  rw [rebuild_eq, hedges, inferRoles_withConnection hcanonical]
  rfl

/-- One edge out of `a`, the start of its identifier ending in blanks. -/
def chainGraph : Graph where
  nodes := [{ id := "a", roles := [.agent] }, { id := "b", roles := [.agent] }]
  edges := [{ id := some "1234  ", source := "a", target := "b" }]

/-- A loop at `a` makes a fork, where the edge that was there gets a key that is not trimmed. It
loses it again with the loop, and `a` stays a router. -/
theorem removeEdge_connect_loop : ∃ g', chainGraph.connect "a" "a" "aa" = .ok g' ∧
    g'.edges.map (fun e => (e.id, e.routeKey)) =
      [(some "1234  ", some "route_1234  "), (some "aa", some "route_aa")] ∧
    g'.removeEdge "aa" = .ok { chainGraph with
      nodes := [{ id := "a", roles := [.agent, .router] }, { id := "b", roles := [.agent] }] } := by
  have hcanonical : IsCanonical chainGraph.nodes chainGraph.edges := by decide +kernel
  obtain ⟨g', hconnect, hremove⟩ : ∃ g', chainGraph.connect "a" "a" "aa" = .ok g' ∧
      g'.removeEdge "aa" = .ok _ :=
    removeEdge_connect hcanonical (by decide) (by decide) (by decide) (by decide)
  have hkeys : (chainGraph.connect "a" "a" "aa").toOption.map
      (·.edges.map fun e => (e.id, e.routeKey)) =
        some [(some "1234  ", some "route_1234  "), (some "aa", some "route_aa")] := by
    decide +kernel
  rw [hconnect] at hkeys
  exact ⟨g', hconnect, Option.some.inj hkeys, hremove.trans (by decide +kernel)⟩

end Graph

end AgentFlow
