import AgentFlow.Proofs.Editor.Locality
import AgentFlow.Proofs.Editor.Rerouting

/-!
# How long a mark lasts

Marking the single edge out of a node conditional holds until the next change. That change leaves
what it would have left without the mark, unless the edge's source then has several edges: in that
case the edge stays conditional, under the key that the mark gave it
(`Operation.setEdgeKind_conditional_lapses`).
-/

namespace AgentFlow

open Routing Text

/-! ## Routing around one edge -/

namespace Routing

variable {branching : Edge → Bool} {label? : String → Option String} {place : Nat}
  {taken : List (String × String)} {before after : List Edge} {e e' : Edge}

/-- Which edges are to be conditional depends on the sources of all edges. -/
theorem isBranching_congr {nodes : List Node} {edges edges' : List Edge} {pinned : List String}
    (h : edges'.map (·.source) = edges.map (·.source)) :
    isBranching nodes edges' pinned = isBranching nodes edges pinned := by
  funext e
  rw [isBranching, isBranching, outDegree_congr h]

/-- An edge with the same link has the same source. -/
theorem map_source_append_cons (hlink : e'.link = e.link) :
    (before ++ e' :: after).map (·.source) = (before ++ e :: after).map (·.source) := by
  simp [(Edge.link_eq_iff.1 hlink).2.1]

/-- The kind and the key of an edge that becomes a normal one make no difference. -/
theorem normalize_append_cons_congr {nodes : List Node} {pinned : List String}
    (hlink : e'.link = e.link)
    (he : isBranching nodes (before ++ e :: after) pinned e = false)
    (he' : isBranching nodes (before ++ e' :: after) pinned e' = false) :
    normalize nodes (before ++ e' :: after) pinned =
      normalize nodes (before ++ e :: after) pinned := by
  have hsame : isBranching nodes (before ++ e' :: after) pinned =
      isBranching nodes (before ++ e :: after) pinned :=
    isBranching_congr (map_source_append_cons hlink)
  have hself : ∀ b, RoutedAlike (isBranching nodes (before ++ e :: after) pinned)
      (isBranching nodes (before ++ e' :: after) pinned) b b := fun b =>
    ⟨rfl, congrFun hsame b, fun _ => rfl⟩
  have halike : RoutedAlike (isBranching nodes (before ++ e :: after) pinned)
      (isBranching nodes (before ++ e' :: after) pinned) e e' := by
    refine ⟨hlink, he'.trans he.symm, fun hbranching => ?_⟩
    rw [he] at hbranching
    cases hbranching
  exact normalize_congr (List.rel_append (List.forall₂_same.2 fun b _ => hself b)
    (.cons halike (List.forall₂_same.2 fun b _ => hself b)))

/-- Where all edges but one are settled and that one is to be conditional, it is given a key. -/
theorem exists_route_eq_append_cons (hothers : ∀ b ∈ before ++ after, IsSettled branching b)
    (he : branching e = true) : ∃ key, trim key ≠ "" ∧
      route branching label? place taken (before ++ e :: after) =
        before ++ keyedEdge e key :: after := by
  rw [List.forall_mem_append] at hothers
  obtain ⟨hbefore, hafter⟩ := hothers
  have hrouted : List.Forall₂ (Routed branching) (before ++ e :: after)
      (route branching label? place taken (before ++ e :: after)) := forall₂_route
  obtain ⟨before', rest, heq, hbefore', hrest⟩ := exists_append_of_forall₂ hrouted
  rw [heq, eq_of_forall₂_routed hbefore hbefore']
  -- Behind the settled edges comes the one that is not, and more settled ones behind it.
  cases hrest with
  | cons hhead htail =>
    rw [eq_of_forall₂_routed hafter htail]
    cases hhead with
    | plain hplain =>
      rw [hplain] at he
      cases he
    | keyed _ hkey => exact ⟨_, hkey, rfl⟩

end Routing

namespace Operation

variable {g : Graph} {op : Operation} {id : String} {before after : List Edge} {e e' : Edge}

/-! ## Setting the mark -/

/-- The edge with the mark set. -/
def markedEdge (e : Edge) : Edge := { e with kind := .conditional }

/-- The mark is set on one edge, where identifiers are distinct. -/
theorem edgesAfter_mark (hothers : id ∉ edgeIds (before ++ after)) (hid : e.id = some id) :
    edgesAfter (.setEdgeKind id .conditional) (before ++ e :: after) =
      before ++ markedEdge e :: after := by
  rw [edgeIds_append, List.mem_append, not_or] at hothers
  have hkeeps : keepsEdge (.setEdgeKind id .conditional) e = true := rfl
  have hedit : editEdge (.setEdgeKind id .conditional) e = markedEdge e := if_pos hid
  have hnew : newEdges (.setEdgeKind id .conditional) = [] := rfl
  rw [edgesAfter_append_cons, edgesAfter, keptEdges_eq_self rfl hothers.1,
    keptEdges_eq_self rfl hothers.2, hkeeps, hedit, hnew]
  simp

/-- A mark pins its edge, and leaves the others as they were. -/
theorem isSettled_mark {nodes : List Node} (hothers : id ∉ edgeIds (before ++ after))
    (h : ∀ e' ∈ before ++ e :: after, IsSettled (isBranching nodes (before ++ e :: after) []) e') :
    ∀ e' ∈ before ++ after,
      IsSettled (isBranching nodes (before ++ markedEdge e :: after) [id]) e' := by
  intro e' he'
  have hunpinned : ∀ id' ∈ [id], e'.id ≠ some id' := by
    intro id' hmem hid'
    rw [List.mem_singleton.1 hmem] at hid'
    exact hothers (mem_edgeIds.2 ⟨e', he', hid'⟩)
  have hsources : (before ++ markedEdge e :: after).map (·.source) =
      (before ++ e :: after).map (·.source) := map_source_append_cons rfl
  have hsame : isBranching nodes (before ++ markedEdge e :: after) [id] e' =
      isBranching nodes (before ++ e :: after) [] e' := by
    rw [isBranching_of_unpinned hunpinned, isBranching_nil, outDegree_congr hsources]
  rw [IsSettled, hsame]
  apply h
  rw [List.mem_append, List.mem_cons]
  exact (List.mem_append.1 he').imp_right Or.inr

/-- Marking an edge gives it a key and changes nothing else. -/
theorem exists_setEdgeKind_eq_ok (hcanonical : IsCanonical g.nodes g.edges) (h : g.IdsDistinct)
    (hsplit : g.edges = before ++ e :: after) (hothers : id ∉ edgeIds (before ++ after))
    (hid : e.id = some id) (hsource : e.source ∈ nodeIds g.nodes)
    (htarget : e.target ∈ nodeIds g.nodes) :
    ∃ key, trim key ≠ "" ∧ g.setEdgeKind id .conditional =
      .ok { g with edges := before ++ keyedEdge e key :: after } := by
  obtain ⟨hsettled, hinferred⟩ := isCanonical_iff.1 hcanonical
  rw [hsplit] at hsettled hinferred
  have hpinned : isBranching g.nodes (before ++ markedEdge e :: after) [id] (markedEdge e) =
      true := by
    simp [isBranching, markedEdge, hid, hsource, htarget, Edge.isConditional]
  obtain ⟨key, hkey, hrouted⟩ :=
    exists_route_eq_append_cons (isSettled_mark hothers hsettled) hpinned
  have hedges : normalize g.nodes (before ++ markedEdge e :: after) [id] =
      before ++ keyedEdge e key :: after := hrouted
  have hsources : (before ++ keyedEdge e key :: after).map (·.source) =
      (before ++ e :: after).map (·.source) := map_source_append_cons rfl
  -- The mark shows no role: it does not change how many edges there are.
  have hnodes : inferRoles g.nodes (before ++ keyedEdge e key :: after) = g.nodes :=
    inferRoles_eq_self_of_le hinferred fun x => Nat.le_of_eq (outDegree_congr hsources x)
  have hpossible : id ∈ edgeIds g.edges := mem_edgeIds.2 ⟨e, by simp [hsplit], hid⟩
  have hnodesAfter : nodesAfter (.setEdgeKind id .conditional) g.nodes = g.nodes := by
    simp [nodesAfter, keepsNode, editNode, newNodes]
  refine ⟨key, hkey, ?_⟩
  show (Operation.setEdgeKind id .conditional).apply g = _
  rw [apply_eq_ok_iff h]
  refine ⟨hpossible, ?_⟩
  show _ = g.rebuild (nodesAfter (.setEdgeKind id .conditional) g.nodes)
    (edgesAfter (.setEdgeKind id .conditional) g.edges) [id]
  rw [hsplit, edgesAfter_mark hothers hid, hnodesAfter, Graph.rebuild_eq, hedges, hnodes]

/-! ## The next change -/

/-- The change sets the mark of an edge anew, or its key. -/
def renewsMark (id : String) : Operation → Bool
  | .setEdgeKind id' kind => id' = id && kind = .conditional
  | .setRouteKey id' _ => id' = id
  | _ => false

/-- A change that pins the edge renews its mark. -/
theorem renewsMark_of_mem_pins {edges : List Edge} (h : id ∈ op.pins edges) :
    op.renewsMark id = true := by
  cases op with
  | setEdgeKind id' kind =>
    simp only [pins] at h
    split at h
    · next hkind => simpa [renewsMark, hkind, eq_comm] using h
    · cases h
  | setRouteKey id' key =>
    simp only [pins] at h
    split at h
    · simpa [renewsMark, eq_comm] using h
    · cases h
  | _ => cases h

/-- How an edge is moved does not depend on its kind and its key. -/
theorem link_editEdge_congr (h : e'.link = e.link) :
    (op.editEdge e').link = (op.editEdge e).link := by
  obtain ⟨hid, hsource, htarget⟩ := Edge.link_eq_iff.1 h
  cases op with
  | rerouteEdge id source target =>
    simp only [editEdge, hid]
    split
    · simp [Edge.link, Graph.movedEdge, hid, hsource, htarget]
    · exact h
  | setEdgeKind id kind =>
    simp only [editEdge, hid]
    split
    · simp [Edge.link, hsource, htarget]
    · exact h
  | setRouteKey id key =>
    simp only [editEdge, hid]
    split
    · simp [Edge.link, hsource, htarget]
    · exact h
  | _ => exact h

/-- An edge that stays is edited in its place. -/
theorem edgesAfter_of_keeps (hkeeps : op.keepsEdge e = true) :
    op.edgesAfter (before ++ e :: after) = (before.filter op.keepsEdge).map op.editEdge ++
      op.editEdge e :: op.edgesAfter after := by
  rw [edgesAfter_append_cons, hkeeps]
  simp

/-- No edge gets the identifier that had another one before. -/
theorem notMem_edgeIds_keptEdges (h : id ∉ edgeIds before) :
    id ∉ edgeIds ((before.filter op.keepsEdge).map op.editEdge) := by
  intro hmem
  obtain ⟨e₀, he₀, hid⟩ := mem_edgeIds.1 hmem
  obtain ⟨old, hold, rfl⟩ := List.mem_map.1 he₀
  rw [id_editEdge] at hid
  exact h (mem_edgeIds.2 ⟨old, (List.mem_filter.1 hold).1, hid⟩)

/-- If the edge goes, its identifier goes with it. -/
theorem notMem_edgeIds_of_drops (hothers : id ∉ edgeIds (before ++ after))
    (hdrops : op.keepsEdge e = false) : id ∉ edgeIds (op.edgesAfter (before ++ e :: after)) := by
  have hnew : op.newEdges = [] := by cases op <;> first | rfl | cases hdrops
  have hkept : op.edgesAfter (before ++ e :: after) =
      ((before ++ after).filter op.keepsEdge).map op.editEdge := by
    simp [edgesAfter, hdrops, hnew]
  rw [hkept]
  exact notMem_edgeIds_keptEdges hothers

/-- Where an identifier is not used before an edge that has it, look-up finds the routed edge. -/
theorem exists_routed_edge? {nodes : List Node} {pinned : List String}
    (hbefore : id ∉ edgeIds before) (hid : e.id = some id)
    (hedges : g.edges = normalize nodes (before ++ e :: after) pinned) :
    ∃ y, g.edge? id = some y ∧ Routed (isBranching nodes (before ++ e :: after) pinned) e y := by
  have hrouted : List.Forall₂ (Routed (isBranching nodes (before ++ e :: after) pinned))
      (before ++ e :: after) g.edges := by
    rw [hedges]
    exact forall₂_route
  obtain ⟨before', rest, heq, hbefore', hrest⟩ := exists_append_of_forall₂ hrouted
  cases hrest with
  | cons hhead htail =>
    rw [← edgeIds_congr (map_eq_of_forall₂ (fun _ _ h => h.id_eq) hbefore')] at hbefore
    exact ⟨_, Graph.edge?_eq_of_split heq hbefore (hhead.id_eq.trans hid), hhead⟩

/-- A change that does not renew the mark does not set the key. -/
theorem setsKeyOf_eq_false (hid : e.id = some id) (hop : op.renewsMark id = false) :
    op.setsKeyOf e = false := by
  cases op with
  | setRouteKey id' key =>
    have hne : id' ≠ id := of_decide_eq_false hop
    refine decide_eq_false fun h => hne ?_
    rw [hid, Option.some.injEq] at h
    exact h.symm
  | _ => rfl

/-- A change that does not renew the mark of an edge does not pin it. -/
theorem isBranching_editEdge (hid : e.id = some id) (hop : op.renewsMark id = false)
    (nodes : List Node) (edges edges' : List Edge) :
    isBranching nodes edges' (op.pins edges) (op.editEdge e) =
      decide (1 < outDegree edges' (op.editEdge e).source) := by
  refine isBranching_of_unpinned fun id' hmem hid' => ?_
  rw [id_editEdge, hid, Option.some.injEq] at hid'
  rw [← hid'] at hmem
  rw [renewsMark_of_mem_pins hmem] at hop
  cases hop

theorem rebuild_congr {nodes : List Node} {edges edges' : List Edge} {pinned : List String}
    (h : normalize nodes edges' pinned = normalize nodes edges pinned) :
    g.rebuild nodes edges' pinned = g.rebuild nodes edges pinned := by
  rw [Graph.rebuild_eq, Graph.rebuild_eq, h]

/-! ## Two graphs that differ in one edge -/

/-- Two graphs differ at most in the kind and the key of the one edge with an identifier. -/
structure DifferAt (id : String) (before after : List Edge) (e e' : Edge) (g g' : Graph) :
    Prop where
  edges : g.edges = before ++ e :: after
  others : id ∉ edgeIds (before ++ after)
  id_eq : e.id = some id
  link_eq : e'.link = e.link
  eq : g' = { g with edges := before ++ e' :: after }

namespace DifferAt

variable {g' h' : Graph} (hd : DifferAt id before after e e' g g')

include hd

/-- The two graphs have the same identifiers, -/
theorem edgeIds_eq : edgeIds g'.edges = edgeIds g.edges := by
  have hids : (before ++ e' :: after).map (·.id) = (before ++ e :: after).map (·.id) := by
    simp [(Edge.link_eq_iff.1 hd.link_eq).1]
  rw [hd.eq, hd.edges]
  exact edgeIds_congr hids

theorem nodes_eq : g'.nodes = g.nodes := by rw [hd.eq]

theorem id_eq' : e'.id = some id := (Edge.link_eq_iff.1 hd.link_eq).1.trans hd.id_eq

/-- so they are distinct in both. -/
theorem idsDistinct (h : g.IdsDistinct) : g'.IdsDistinct := by
  constructor
  · rw [hd.nodes_eq]
    exact h.nodes
  · rw [hd.edgeIds_eq]
    exact h.edges

/-- What is connected in one is connected in the other. -/
theorem isRepeated_eq : op.isRepeated g' = op.isRepeated g := by
  obtain ⟨-, hsource, htarget⟩ := Edge.link_eq_iff.1 hd.link_eq
  cases op with
  | connect source target =>
    rw [hd.eq]
    simp [isRepeated, Graph.isConnected, hd.edges, hsource, htarget]
  | _ => rfl

/-- The next change pins the same edges. -/
theorem pins_eq (hop : op.renewsMark id = false) : op.pins g'.edges = op.pins g.edges := by
  cases op with
  | setRouteKey id' key =>
    have hne : id ≠ id' := fun h => by simp [renewsMark, h] at hop
    rw [hd.eq]
    simp [pins, hd.edges, hd.id_eq, hd.id_eq', hne]
  | _ => rfl

/-- The next change hands over the same nodes and pins. -/
theorem eq_rebuild_of_apply (h : g.IdsDistinct) (hok : op.apply g' = .ok h')
    (hnew : op.isRepeated g' = false) (hop : op.renewsMark id = false) :
    op.IsPossible (nodeIds g.nodes) (edgeIds g.edges) ∧ op.isRepeated g = false ∧
      h' = g.rebuild (op.nodesAfter g.nodes) (op.edgesAfter g'.edges) (op.pins g.edges) := by
  obtain ⟨hpossible, heq⟩ := (apply_eq_ok_iff (hd.idsDistinct h)).1 hok
  rw [hnew, if_neg Bool.false_ne_true, hd.nodes_eq, hd.pins_eq hop] at heq
  rw [hd.nodes_eq, hd.edgeIds_eq] at hpossible
  rw [hd.isRepeated_eq] at hnew
  refine ⟨hpossible, hnew, ?_⟩
  rw [heq, hd.eq]
  rfl

/-- If the edge goes, the rest is the same. -/
theorem edgesAfter_eq_of_drops (hdrops : op.keepsEdge e = false) :
    op.edgesAfter g'.edges = op.edgesAfter g.edges := by
  rw [hd.eq, hd.edges]
  simp [edgesAfter_append_cons, keepsEdge_congr hd.link_eq, hdrops]

/-- The edge after the next change, should it stay. -/
theorem exists_routed (h : g.IdsDistinct) (hok : op.apply g' = .ok h')
    (hnew : op.isRepeated g' = false) (hop : op.renewsMark id = false)
    (hkeeps : op.keepsEdge e = true) : ∃ y, h'.edge? id = some y ∧
      Routed (fun x => 1 < outDegree h'.edges x.source) (op.editEdge e') y := by
  obtain ⟨-, -, heq⟩ := hd.eq_rebuild_of_apply h hok hnew hop
  have hothers := hd.others
  rw [edgeIds_append, List.mem_append, not_or] at hothers
  have hkeeps' : op.keepsEdge e' = true := by rw [keepsEdge_congr hd.link_eq, hkeeps]
  have hnormal : h'.edges = normalize (op.nodesAfter g.nodes) (op.edgesAfter g'.edges)
      (op.pins g.edges) := by rw [heq]; rfl
  have hbranching : isBranching (op.nodesAfter g.nodes) (op.edgesAfter g'.edges) (op.pins g.edges)
      (op.editEdge e') = decide (1 < outDegree h'.edges (op.editEdge e').source) := by
    rw [isBranching_editEdge hd.id_eq' hop, hnormal, outDegree_normalize]
  rw [hd.eq, edgesAfter_of_keeps hkeeps'] at hnormal hbranching
  obtain ⟨y, hy, hrouted⟩ := exists_routed_edge? (notMem_edgeIds_keptEdges hothers.1)
    ((op.id_editEdge e').trans hd.id_eq') hnormal
  exact ⟨y, hy, hrouted.congr hbranching⟩

/-- If the edge is normal after the next change, the change leaves what it would have left. -/
theorem apply_eq_ok_of_plain (h : g.IdsDistinct) (hok : op.apply g' = .ok h')
    (hnew : op.isRepeated g' = false) (hop : op.renewsMark id = false)
    (hplain : ∀ y, h'.edge? id = some y → outDegree h'.edges y.source ≤ 1) :
    op.apply g = .ok h' := by
  obtain ⟨hpossible, hnew', heq⟩ := hd.eq_rebuild_of_apply h hok hnew hop
  rw [apply_eq_ok_iff h, hnew', if_neg Bool.false_ne_true]
  refine ⟨hpossible, heq.trans (rebuild_congr ?_)⟩
  cases hkeeps : op.keepsEdge e with
  | false => rw [hd.edgesAfter_eq_of_drops hkeeps]
  | true =>
    obtain ⟨y, hy, hrouted⟩ := hd.exists_routed h hok hnew hop hkeeps
    have hkeeps' : op.keepsEdge e' = true := by rw [keepsEdge_congr hd.link_eq, hkeeps]
    have hlink : (op.editEdge e').link = (op.editEdge e).link := link_editEdge_congr hd.link_eq
    -- The edge that is found is the routed one, at the source where the change has put it.
    have hone : outDegree (op.edgesAfter g'.edges) (op.editEdge e').source ≤ 1 := by
      have hy := hplain y hy
      rw [hrouted.source_eq, heq] at hy
      exact outDegree_normalize _ ▸ hy
    have hplain' : ∀ nodes, isBranching nodes (op.edgesAfter g'.edges) (op.pins g.edges)
        (op.editEdge e') = false := by
      intro nodes
      rw [isBranching_editEdge hd.id_eq' hop]
      exact decide_eq_false (Nat.not_lt.2 hone)
    rw [hd.eq, edgesAfter_of_keeps hkeeps'] at hone hplain' ⊢
    rw [hd.edges, edgesAfter_of_keeps hkeeps, ← hd.edges]
    refine normalize_append_cons_congr hlink ?_ (hplain' _)
    -- Without the mark, the same edges go out of the same source.
    rw [isBranching_editEdge hd.id_eq hop, ← (Edge.link_eq_iff.1 hlink).2.1,
      ← outDegree_congr (map_source_append_cons hlink)]
    exact decide_eq_false (Nat.not_lt.2 hone)

/-- If the edge's source has several edges after the next change, the edge is conditional, with the
key that it had before. -/
theorem routeKey_eq_of_apply (h : g.IdsDistinct) (hok : op.apply g' = .ok h')
    (hnew : op.isRepeated g' = false) (hop : op.renewsMark id = false)
    (hkey : explicitKey e' ≠ "") {y : Edge} (hy : h'.edge? id = some y)
    (hmany : 1 < outDegree h'.edges y.source) :
    y.kind = .conditional ∧ y.routeKey = some (explicitKey e') := by
  cases hkeeps : op.keepsEdge e with
  | false =>
    obtain ⟨-, -, heq⟩ := hd.eq_rebuild_of_apply h hok hnew hop
    obtain ⟨hmem, hid⟩ := mem_of_edge? hy
    -- The edge has gone, so none is found under its identifier.
    refine absurd (mem_edgeIds.2 ⟨y, hmem, hid⟩) ?_
    rw [heq, hd.edgesAfter_eq_of_drops hkeeps, hd.edges]
    show id ∉ edgeIds (normalize _ _ _)
    rw [edgeIds_normalize]
    exact notMem_edgeIds_of_drops hd.others hkeeps
  | true =>
    obtain ⟨y', hy', hrouted⟩ := hd.exists_routed h hok hnew hop hkeeps
    obtain rfl : y' = y := Option.some.inj (hy'.symm.trans hy)
    have hkind : y'.kind = .conditional := by
      rw [hrouted.kind_eq_conditional_iff, ← hrouted.source_eq]
      exact decide_eq_true hmany
    have hkept : explicitKey (op.editEdge e') = explicitKey e' := by
      rw [explicitKey, routeKey_editEdge (setsKeyOf_eq_false hd.id_eq' hop), explicitKey]
    rw [← hkept]
    exact ⟨hkind, hrouted.routeKey_eq hkind (hkept ▸ hkey)⟩

end DifferAt

/-- Marking an edge conditional makes it conditional, under a key, until the next change. If that
change neither marks the edge again nor sets its key, and does anything at all, then either the edge
is not at a source of several edges afterwards, and the change has left what it would have left
without the mark, or the edge is still conditional and has the key. -/
theorem setEdgeKind_conditional_lapses (hcanonical : IsCanonical g.nodes g.edges)
    (h : g.IdsDistinct) (he : e ∈ g.edges) (hid : e.id = some id)
    (hsource : e.source ∈ nodeIds g.nodes) (htarget : e.target ∈ nodeIds g.nodes) :
    ∃ g' key, g.setEdgeKind id .conditional = .ok g' ∧ g'.edge? id = some (keyedEdge e key) ∧
      trim key ≠ "" ∧ ∀ (op : Operation) (h' : Graph), op.apply g' = .ok h' →
        op.isRepeated g' = false → op.renewsMark id = false →
        ((∀ e', h'.edge? id = some e' → outDegree h'.edges e'.source ≤ 1) →
          op.apply g = .ok h') ∧
        ∀ e', h'.edge? id = some e' → 1 < outDegree h'.edges e'.source →
          e'.kind = .conditional ∧ e'.routeKey = some (trim key) := by
  obtain ⟨before, after, hsplit, hothers⟩ := exists_split_of_mem h.edges he hid
  obtain ⟨key, hkey, hok⟩ :=
    exists_setEdgeKind_eq_ok hcanonical h hsplit hothers hid hsource htarget
  have hd : DifferAt id before after e (keyedEdge e key) g
      { g with edges := before ++ keyedEdge e key :: after } := ⟨hsplit, hothers, hid, rfl, rfl⟩
  refine ⟨_, key, hok, ?_, hkey, fun op h' hok' hnew hop => ⟨?_, ?_⟩⟩
  · rw [edgeIds_append, List.mem_append, not_or] at hothers
    exact Graph.edge?_eq_of_split rfl hothers.1 hid
  · exact hd.apply_eq_ok_of_plain h hok' hnew hop
  · intro e' he' hmany
    exact hd.routeKey_eq_of_apply h hok' hnew hop hkey he' hmany

/-- One edge out of `a`, and a node that nothing leads to. -/
def loneGraph : Graph where
  nodes := [{ id := "a", roles := [.agent] }, { id := "b", label := "Done", roles := [.agent] },
    { id := "c", roles := [.agent] }]
  edges := [{ id := some "ab", source := "a", target := "b" }]

/-- The mark on the single edge goes with the removal of another node, and its key stays with a
second edge. -/
theorem setEdgeKind_conditional_lapses_lone :
    ∃ g', loneGraph.setEdgeKind "ab" .conditional = .ok g' ∧ g' ≠ loneGraph ∧
      (∃ h', (removeNode "c").apply g' = .ok h' ∧ (removeNode "c").apply loneGraph = .ok h') ∧
      ∃ h' e', (connect "a" "c" "ac").apply g' = .ok h' ∧ h'.edge? "ab" = some e' ∧
        e'.routeKey = some "done" := by
  obtain ⟨g', key, hok, hedge, -, hnext⟩ := setEdgeKind_conditional_lapses (g := loneGraph)
    (by decide +kernel) ⟨by decide, by decide⟩ (List.mem_singleton_self _) rfl (by decide)
    (by decide)
  obtain ⟨g'', hok', hdone, hapart, ⟨h₁, hdropped, hfew⟩, h₂, e', hbranched, he', hmany⟩ : ∃ g'',
      loneGraph.setEdgeKind "ab" .conditional = .ok g'' ∧
      (g''.edge? "ab").map (·.routeKey) = some (some "done") ∧ g''.isConnected "a" "c" = false ∧
      (∃ h', (removeNode "c").apply g'' = .ok h' ∧ h'.edges.length ≤ 1) ∧
      ∃ h' e', (connect "a" "c" "ac").apply g'' = .ok h' ∧ h'.edge? "ab" = some e' ∧
        1 < outDegree h'.edges e'.source :=
    ⟨_, rfl, by decide +kernel, by decide +kernel, ⟨_, rfl, by decide +kernel⟩, _, _, rfl, rfl,
      by decide +kernel⟩
  obtain rfl : g' = g'' := Except.ok.inj (hok.symm.trans hok')
  have hkey : key = "done" := by simpa [hedge, keyedEdge] using hdone
  have hmarked : g' ≠ loneGraph := by
    rintro rfl
    exact absurd hdone (by decide +kernel)
  have hlapsed : (removeNode "c").apply loneGraph = .ok h₁ :=
    (hnext _ h₁ hdropped rfl rfl).1 fun y _ => Nat.le_trans List.countP_le_length hfew
  have hkept := ((hnext _ h₂ hbranched hapart rfl).2 e' he' hmany).2
  rw [hkey] at hkept
  exact ⟨g', hok, hmarked, ⟨h₁, hdropped, hlapsed⟩, h₂, e', hbranched, he', hkept⟩

end Operation

end AgentFlow
