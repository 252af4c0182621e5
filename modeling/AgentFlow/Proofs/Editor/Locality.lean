import AgentFlow.Proofs.Editor.EdgeIds

/-!
# How far a change reaches

A change brings the whole graph into canonical form again. If the graph was in canonical form
before, that alters little: only edges at a source that the change gives or takes an edge, and of
the nodes only the edited one, apart from the role of a router for a node that gets an edge. No
change but that of its own key alters the key of an edge that stays conditional
(`Operation.apply_isLocal`).
-/

namespace AgentFlow

open Routing

namespace Operation

variable {g g' : Graph} {op : Operation}

/-! ## What a change is about -/

/-- The change is about the edge, or removes the node that it leads into. -/
def touches (op : Operation) (e : Edge) : Bool :=
  match op with
  | .removeNode id => e.target = id
  | _ => op.edgeId?.any fun id => e.id = some id

/-- The nodes that may get an edge. -/
def gainingSources : Operation → List String
  | .connect source _ _ => [source]
  | .rerouteEdge _ source _ => source.toList
  | _ => []

/-- The nodes at which edges may come, go or change. -/
def touchedSources (op : Operation) (edges : List Edge) : List String :=
  op.gainingSources ++ (edges.filter op.touches).map (·.source)

def editsNode : Operation → Node → Bool
  | .moveNode id _ _ | .updateNode id _ | .toggleTool id _ => fun n => n.id = id
  | _ => fun _ => false

def setsKeyOf : Operation → Edge → Bool
  | .setRouteKey id _ => fun e => e.id = some id
  | _ => fun _ => false

def isMove : Operation → Bool
  | .moveNode _ _ _ => true
  | _ => false

/-! ## What is left alone -/

/-- What a change leaves of an edge that stays; `edges` are those of the graph before. -/
structure EdgeStays (op : Operation) (edges : List Edge) (e e' : Edge) : Prop where
  id_eq : e'.id = e.id
  untouched : e.source ∉ op.touchedSources edges → e' = e
  routeKey_eq : op.setsKeyOf e = false → e.isConditional → e'.isConditional →
    e'.routeKey = e.routeKey

/-- What a change leaves of a node that stays. -/
structure NodeStays (op : Operation) (n n' : Node) : Prop where
  id_eq : n'.id = n.id
  unedited : op.editsNode n = false → n.id ∉ op.gainingSources → n' = n
  gains : op.editsNode n = false →
    n' = n ∨ n' = { n with roles := Role.canonical (.router :: n.roles) }
  moved : op.isMove → n' = { n with position := n'.position }

/-- A change leaves alone what it is not about: the nodes and edges that it keeps stay in their
order, what is new comes after them, and each is left what a change leaves of it. -/
structure IsLocal (op : Operation) (g g' : Graph) : Prop where
  name_eq : g'.name = g.name
  nodes : ∃ kept new, g'.nodes = kept ++ new ∧ nodeIds new = nodeIds op.newNodes ∧
    List.Forall₂ op.NodeStays (g.nodes.filter op.keepsNode) kept
  edges : ∃ kept new, g'.edges = kept ++ new ∧
    (new.map Edge.link).Sublist (op.newEdges.map Edge.link) ∧
    List.Forall₂ (op.EdgeStays g.edges) (g.edges.filter op.keepsEdge) kept

/-! ## Sources -/

/-- An edge comes only to a source that may gain one. -/
theorem source_eq_of_notMem_gainingSources {e : Edge} {x : String} (hx : x ∉ op.gainingSources)
    (h : (op.editEdge e).source = x) : e.source = x := by
  cases op with
  | rerouteEdge id source target =>
    simp only [editEdge] at h
    split at h
    · cases source with
      | none => exact h
      | some s =>
        -- The edge has been moved to a new source, which gains it.
        refine absurd ?_ hx
        rw [← h]
        exact List.mem_singleton_self s
    · exact h
  | setEdgeKind =>
    simp only [editEdge] at h
    split at h <;> exact h
  | setRouteKey =>
    simp only [editEdge] at h
    split at h <;> exact h
  | _ => exact h

/-- The source of a new edge gains one. -/
theorem source_mem_gainingSources {e : Edge} (h : e ∈ op.newEdges) :
    e.source ∈ op.gainingSources := by
  cases op with
  | connect source target id =>
    rw [List.mem_singleton.1 h]
    exact List.mem_singleton_self source
  | _ => cases h

/-- An edge of a source that is not touched is not touched. -/
theorem touches_eq_false {edges : List Edge} {e : Edge} (he : e ∈ edges)
    (h : e.source ∉ op.touchedSources edges) : op.touches e = false := by
  rw [touchedSources, List.mem_append, not_or] at h
  refine Bool.eq_false_iff.2 fun htouches => h.2 ?_
  exact List.mem_map_of_mem (List.mem_filter.2 ⟨he, htouches⟩)

/-- The change is not about an edge that it does not touch. -/
theorem id_ne_of_touches_eq_false {e : Edge} (h : op.touches e = false) (id : String)
    (hid : op.edgeId? = some id) : e.id ≠ some id := by
  intro heid
  cases op <;> cases hid <;> simp [touches, edgeId?, heid] at h

/-- Where a change keeps an edge, it keeps every other edge of the source that it does not touch. -/
theorem keepsEdge_of_touches_eq_false {e₀ e : Edge} (h₀ : op.keepsEdge e₀ = true)
    (hsource : e.source = e₀.source) (h : op.touches e = false) : op.keepsEdge e = true := by
  cases op with
  | removeNode id =>
    simp only [keepsEdge, touches, Bool.and_eq_true, decide_eq_true_eq, decide_eq_false_iff_not]
      at h₀ h ⊢
    exact ⟨hsource ▸ h₀.1, h⟩
  | removeEdge id =>
    exact decide_eq_true (id_ne_of_touches_eq_false h id rfl)
  | _ => rfl

/-! ## Degrees -/

/-- Out-degrees after a change: the edges that stay count at their new sources, and the new ones
too. -/
theorem outDegree_edgesAfter (op : Operation) (edges : List Edge) (x : String) :
    outDegree (op.edgesAfter edges) x =
      edges.countP (fun e => (op.editEdge e).source = x && op.keepsEdge e) +
        outDegree op.newEdges x := by
  rw [outDegree, edgesAfter, List.countP_append, List.countP_map, List.countP_filter]
  rfl

/-- New edges count only where a source gains one. -/
theorem outDegree_newEdges_eq_zero {x : String} (hx : x ∉ op.gainingSources) :
    outDegree op.newEdges x = 0 := by
  rw [outDegree, List.countP_eq_zero]
  intro e he hsource
  exact hx (of_decide_eq_true hsource ▸ source_mem_gainingSources he)

/-- A source that gains no edge has no more edges than before. -/
theorem outDegree_edgesAfter_le {edges : List Edge} {x : String} (hx : x ∉ op.gainingSources) :
    outDegree (op.edgesAfter edges) x ≤ outDegree edges x := by
  rw [outDegree_edgesAfter, outDegree_newEdges_eq_zero hx, Nat.add_zero]
  refine List.countP_mono_left fun e _ h => ?_
  rw [Bool.and_eq_true, decide_eq_true_eq] at h
  exact decide_eq_true (source_eq_of_notMem_gainingSources hx h.1)

/-- The out-degree of a source that is not touched stays, if an edge of it does. -/
theorem outDegree_edgesAfter_eq {edges : List Edge} {e₀ : Edge} (h₀ : op.keepsEdge e₀ = true)
    (hx : e₀.source ∉ op.touchedSources edges) :
    outDegree (op.edgesAfter edges) e₀.source = outDegree edges e₀.source := by
  have hgaining : e₀.source ∉ op.gainingSources := fun h => hx (List.mem_append_left _ h)
  apply Nat.le_antisymm (outDegree_edgesAfter_le hgaining)
  rw [outDegree_edgesAfter, outDegree_newEdges_eq_zero hgaining, Nat.add_zero]
  -- No edge of the source goes: where one is kept, so are the others that are not touched.
  refine List.countP_mono_left fun e he hsource => ?_
  rw [decide_eq_true_eq] at hsource
  have htouches : op.touches e = false := touches_eq_false he (hsource ▸ hx)
  have hedit : op.editEdge e = e := editEdge_of_ne (id_ne_of_touches_eq_false htouches)
  have hkeeps : op.keepsEdge e = true := keepsEdge_of_touches_eq_false h₀ hsource htouches
  rw [hedit, hsource, hkeeps]
  simp

/-! ## Edges -/

/-- A change pins only the edge that it is about. -/
theorem edgeId?_eq_of_mem_pins {edges : List Edge} {id : String} (h : id ∈ op.pins edges) :
    op.edgeId? = some id := by
  cases op <;> simp only [pins, List.not_mem_nil] at h
  case setEdgeKind =>
    split at h
    · rw [List.mem_singleton.1 h]
      rfl
    · cases h
  case setRouteKey =>
    split at h
    · rw [List.mem_singleton.1 h]
      rfl
    · cases h

/-- Where an edge that is not touched stays, routing sees what it saw before. -/
theorem isBranching_edgesAfter {nodes nodes' : List Node} {edges : List Edge} {e : Edge}
    (hkeeps : op.keepsEdge e = true) (htouches : op.touches e = false)
    (hx : e.source ∉ op.touchedSources edges) :
    isBranching nodes' (op.edgesAfter edges) (op.pins edges) e = isBranching nodes edges [] e := by
  have hunpinned : ∀ id ∈ op.pins edges, e.id ≠ some id := fun id hmem =>
    id_ne_of_touches_eq_false htouches id (edgeId?_eq_of_mem_pins hmem)
  rw [isBranching_of_unpinned hunpinned, outDegree_edgesAfter_eq hkeeps hx, isBranching_nil]

/-- An edge keeps its key unless the change sets it. -/
theorem routeKey_editEdge {e : Edge} (h : op.setsKeyOf e = false) :
    (op.editEdge e).routeKey = e.routeKey := by
  cases op with
  | setRouteKey id key =>
    have hne : e.id ≠ some id := of_decide_eq_false h
    show (if e.id = some id then _ else e).routeKey = e.routeKey
    rw [if_neg hne]
  | rerouteEdge =>
    simp only [editEdge]
    split <;> rfl
  | setEdgeKind =>
    simp only [editEdge]
    split <;> rfl
  | _ => rfl

/-- An edge that canonical form leaves alone, edited and routed again. -/
theorem edgeStays_of_routed {nodes nodes' : List Node} {edges : List Edge} {e e' : Edge}
    (he : e ∈ edges) (hsettled : IsSettled (isBranching nodes edges []) e)
    (hkeeps : op.keepsEdge e = true)
    (hrouted : Routed (isBranching nodes' (op.edgesAfter edges) (op.pins edges))
      (op.editEdge e) e') :
    op.EdgeStays edges e e' where
  id_eq := by rw [hrouted.id_eq, id_editEdge]
  untouched := by
    intro hx
    have htouches := touches_eq_false he hx
    rw [editEdge_of_ne (id_ne_of_touches_eq_false htouches)] at hrouted
    apply hrouted.eq_of_isSettled
    rw [IsSettled, isBranching_edgesAfter hkeeps htouches hx]
    exact hsettled
  routeKey_eq := by
    intro hsets hbefore hafter
    have hbranching : isBranching nodes edges [] e = true :=
      hsettled.kind_eq_conditional_iff.1 (of_decide_eq_true hbefore)
    -- A settled conditional edge has its own key, trimmed, and routing prefers it to any other.
    obtain ⟨hne, hkey⟩ := hsettled.explicitKey_eq hbranching
    have hedit : explicitKey (op.editEdge e) = explicitKey e := by
      rw [explicitKey, routeKey_editEdge hsets, explicitKey]
    rw [hrouted.routeKey_eq (of_decide_eq_true hafter) (hedit ▸ hne), hedit, hkey]

/-! ## Nodes -/

/-- A node that the change does not edit stays. -/
theorem editNode_of_not_edits {n : Node} (h : op.editsNode n = false) : op.editNode n = n := by
  cases op with
  | moveNode => exact if_neg (of_decide_eq_false h)
  | updateNode => exact if_neg (of_decide_eq_false h)
  | toggleTool => exact if_neg (of_decide_eq_false h)
  | _ => rfl

/-- A node that canonical form leaves alone, edited and with its roles inferred again. -/
theorem nodeStays_inferRoles {edges : List Edge} {n : Node}
    (hn : n.inferRoles (outDegree edges n.id) = n) :
    op.NodeStays n ((op.editNode n).inferRoles (outDegree (op.edgesAfter edges) n.id)) where
  id_eq := by
    rw [Node.inferRoles_id, id_editNode]
  unedited := by
    intro hedits hgaining
    rw [editNode_of_not_edits hedits]
    exact Node.inferRoles_eq_self_of_le hn (outDegree_edgesAfter_le hgaining)
  gains := by
    intro hedits
    rw [editNode_of_not_edits hedits]
    exact Node.inferRoles_eq_or_gains hn _
  moved := by
    intro hmove
    cases op with
    | moveNode id x y =>
      have hle : outDegree (edgesAfter (.moveNode id x y) edges) n.id ≤ outDegree edges n.id :=
        outDegree_edgesAfter_le List.not_mem_nil
      have hsame := Node.inferRoles_eq_self_of_le hn hle
      generalize outDegree (edgesAfter (.moveNode id x y) edges) n.id = fanOut at hsame ⊢
      simp only [editNode]
      split
      · -- The roles do not depend on the position.
        show { n.inferRoles fanOut with position := some [("x", x), ("y", y)] } =
          { n with position := some [("x", x), ("y", y)] }
        rw [hsame]
      · rw [hsame]
    | _ => cases hmove

/-! ## All changes -/

/-- A repeated connection leaves everything alone. -/
theorem isLocal_refl (hrepeated : op.isRepeated g = true) : op.IsLocal g g := by
  cases op with
  | connect source target id =>
    refine ⟨rfl, ⟨g.nodes, [], by simp, rfl, ?_⟩, ⟨g.edges, [], by simp, by simp, ?_⟩⟩
    · show List.Forall₂ _ (g.nodes.filter fun _ => true) g.nodes
      rw [List.filter_true]
      exact List.forall₂_same.2 fun n _ =>
        ⟨rfl, fun _ _ => rfl, fun _ => Or.inl rfl, fun _ => rfl⟩
    · show List.Forall₂ _ (g.edges.filter fun _ => true) g.edges
      rw [List.filter_true]
      exact List.forall₂_same.2 fun e _ => ⟨rfl, fun _ => rfl, fun _ _ _ => rfl⟩
  | _ => cases hrepeated

/-- What canonical form makes of a change is local. -/
theorem isLocal_rebuild (hcanonical : IsCanonical g.nodes g.edges) : op.IsLocal g
    (g.rebuild (op.nodesAfter g.nodes) (op.edgesAfter g.edges) (op.pins g.edges)) := by
  obtain ⟨hsettled, hinferred⟩ := isCanonical_iff.1 hcanonical
  refine ⟨rfl, ?_, ?_⟩
  · show ∃ kept new, inferRoles (op.nodesAfter g.nodes)
        (normalize (op.nodesAfter g.nodes) (op.edgesAfter g.edges) (op.pins g.edges)) =
          kept ++ new ∧ _
    refine ⟨_, _, List.map_append, nodeIds_inferRoles, ?_⟩
    rw [List.map_map, List.forall₂_map_right_iff, List.forall₂_same]
    intro n hn
    show op.NodeStays n
      ((op.editNode n).inferRoles (outDegree (normalize _ _ _) (op.editNode n).id))
    rw [outDegree_normalize, id_editNode]
    exact nodeStays_inferRoles (hinferred n (List.mem_filter.1 hn).1)
  · show ∃ kept new, normalize (op.nodesAfter g.nodes) (op.edgesAfter g.edges) (op.pins g.edges) =
      kept ++ new ∧ _
    have hrouted : List.Forall₂
        (Routed (isBranching (op.nodesAfter g.nodes) (op.edgesAfter g.edges) (op.pins g.edges)))
        (op.edgesAfter g.edges)
        (normalize (op.nodesAfter g.nodes) (op.edgesAfter g.edges) (op.pins g.edges)) :=
      forall₂_route
    obtain ⟨kept, new, heq, hkept, hnew⟩ := exists_append_of_forall₂ hrouted
    refine ⟨kept, new, heq, ?_, ?_⟩
    · rw [map_eq_of_forall₂ (fun _ _ h => h.link_eq) hnew]
    · rw [List.forall₂_map_left_iff] at hkept
      refine forall₂_of_mem (fun e he e' hrouted => ?_) hkept
      obtain ⟨hmem, hkeeps⟩ := List.mem_filter.1 he
      exact edgeStays_of_routed hmem (hsettled e hmem) hkeeps hrouted

/-- A change of a graph in canonical form leaves alone what it is not about. -/
theorem apply_isLocal (hcanonical : IsCanonical g.nodes g.edges) (h : g.IdsDistinct)
    (hok : op.apply g = .ok g') : op.IsLocal g g' := by
  obtain ⟨-, rfl⟩ := (apply_eq_ok_iff h).1 hok
  split
  · next hrepeated => exact isLocal_refl hrepeated
  · exact isLocal_rebuild hcanonical

/-- A branch out of `a`, and one edge out of `d`. -/
def forkGraph : Graph where
  nodes := [{ id := "a", roles := [.agent, .router] }, { id := "b", roles := [.agent] },
    { id := "c", roles := [.agent] }, { id := "d", roles := [.agent] }]
  edges := [
    { id := some "ab", source := "a", target := "b", kind := .conditional,
      routeKey := some "left" },
    { id := some "ac", source := "a", target := "c", kind := .conditional,
      routeKey := some "right" },
    { id := some "db", source := "d", target := "b" }]

/-- One edge of the branch goes over to `d`: it keeps its key, and the others get or lose theirs. -/
theorem apply_isLocal_fork : ∃ g', (rerouteEdge "ab" (some "d") none).apply forkGraph = .ok g' ∧
    (rerouteEdge "ab" (some "d") none).IsLocal forkGraph g' ∧
    g'.edges.map (fun e => (e.id, e.routeKey)) =
      [(some "ab", some "left"), (some "ac", none), (some "db", some "route_db")] := by
  have hcanonical : IsCanonical forkGraph.nodes forkGraph.edges := by decide +kernel
  have hids : forkGraph.IdsDistinct := ⟨by decide, by decide⟩
  have hok : ∃ g', (rerouteEdge "ab" (some "d") none).apply forkGraph = .ok g' ∧
      g'.edges.map (fun e => (e.id, e.routeKey)) =
        [(some "ab", some "left"), (some "ac", none), (some "db", some "route_db")] :=
    ⟨_, rfl, by decide +kernel⟩
  obtain ⟨g', hok, hkeys⟩ := hok
  exact ⟨g', hok, apply_isLocal hcanonical hids hok, hkeys⟩

end Operation

end AgentFlow
