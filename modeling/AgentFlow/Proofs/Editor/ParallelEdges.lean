import AgentFlow.Proofs.Editor.EdgeIds

/-!
# Parallel edges

Two edges are parallel if they lead from the same node to the same node. Connecting nodes never
makes a second edge beside the one that they have. The changes that put an edge in the place of
those with its identifier do, in two cases (`Operation.Doubles`): the edge is moved to where another
is, or there are several edges with its identifier, and each becomes a copy of it. So no edges are
parallel along a run exactly if no step of it is one of these (`Operation.run_empty_isSimple_iff`).
-/

namespace AgentFlow

def Edge.ends (e : Edge) : String × String := (e.source, e.target)

theorem Edge.ends_eq_iff {e e' : Edge} :
    e'.ends = e.ends ↔ e'.source = e.source ∧ e'.target = e.target := Prod.mk_inj

@[simp] theorem Routing.map_ends_normalize {nodes : List Node} {edges : List Edge}
    {pinned : List String} : (normalize nodes edges pinned).map Edge.ends = edges.map Edge.ends :=
  map_normalize_eq fun _ _ _ hsource htarget => Edge.ends_eq_iff.2 ⟨hsource, htarget⟩

namespace Graph

variable {g : Graph} {id : String}

/-- No two edges have the same source and the same target. -/
def IsSimple (g : Graph) : Prop := (g.edges.map Edge.ends).Nodup

instance (g : Graph) : Decidable g.IsSimple := inferInstanceAs (Decidable (List.Nodup _))

def IsShared (g : Graph) (id : String) : Prop := 1 < g.edges.countP (·.id = some id)

/-- Canonical form moves no edge, so it neither makes parallel edges nor removes them. -/
@[simp] theorem isSimple_rebuild {nodes : List Node} {edges : List Edge} {pinned : List String} :
    (g.rebuild nodes edges pinned).IsSimple ↔ (edges.map Edge.ends).Nodup := by
  rw [IsSimple, rebuild_eq, Routing.map_ends_normalize]

/-- Nodes are not connected if no edge has their ends. -/
theorem isConnected_eq_false_iff {source target : String} :
    g.isConnected source target = false ↔ (source, target) ∉ g.edges.map Edge.ends := by
  simp [isConnected, Edge.ends]

/-- An identifier that is shared is in use. -/
theorem IsShared.exists_edge? (h : g.IsShared id) : ∃ e, g.edge? id = some e := by
  obtain ⟨e, he, hid⟩ := List.countP_pos_iff.1 (Nat.lt_trans Nat.zero_lt_one h)
  exact exists_edge?_iff.2 (mem_edgeIds.2 ⟨e, he, of_decide_eq_true hid⟩)

/-- Distinct identifiers are not shared. -/
theorem not_isShared (h : (edgeIds g.edges).Nodup) : ¬ g.IsShared id := by
  have hcount : g.edges.countP (·.id = some id) = (edgeIds g.edges).count id := by
    rw [edgeIds, List.count, List.countP_filterMap]
    refine List.countP_congr fun e _ => ?_
    cases e.id <;> simp
  rw [IsShared, hcount]
  exact Nat.not_lt.2 (List.nodup_iff_count_le_one.1 h id)

/-! ## One change -/

/-- Dropping edges makes none parallel. -/
theorem IsSimple.filter (h : g.IsSimple) (keep : Edge → Bool) :
    ((g.edges.filter keep).map Edge.ends).Nodup :=
  h.sublist (List.filter_sublist.map _)

/-- A new edge between nodes that are not connected yet is parallel to none. -/
theorem IsSimple.concat (h : g.IsSimple) {e : Edge}
    (hnew : g.isConnected e.source e.target = false) : ((g.edges ++ [e]).map Edge.ends).Nodup := by
  rw [List.map_append, List.map_singleton, ← List.concat_eq_append, List.nodup_concat]
  exact ⟨isConnected_eq_false_iff.1 hnew, h⟩

/-- An edge in the place of those with its identifier is parallel to none exactly if it takes the
place of one edge only, and is not where an edge with another identifier is. -/
theorem IsSimple.replaceEdge_iff (h : g.IsSimple) {e : Edge} (hid : e.id = some id)
    (hthere : id ∈ edgeIds g.edges) : ((g.replaceEdge e).map Edge.ends).Nodup ↔
      ¬ g.IsShared id ∧ ∀ other ∈ g.edges, other.id ≠ some id → other.ends ≠ e.ends := by
  obtain ⟨old, hold, holdId⟩ := mem_edgeIds.1 hthere
  have hends : (g.replaceEdge e).map Edge.ends =
      g.edges.map fun old => if decide (old.id = some id) then e.ends else old.ends := by
    rw [replaceEdge, List.map_map, hid]
    refine List.map_congr_left fun old _ => ?_
    rw [Function.comp_apply, apply_ite Edge.ends]
    simp only [decide_eq_true_eq]
  rw [hends, nodup_map_ite_iff h ⟨old, hold, decide_eq_true holdId⟩, IsShared, Nat.not_lt]
  simp only [decide_eq_false_iff_not]

/-- An edge that stays where it is doubles another only if the two share an identifier. -/
theorem IsSimple.replaceEdge_of_ends_iff (h : g.IsSimple) {old e : Edge}
    (hold : g.edge? id = some old) (hid : e.id = old.id) (hends : e.ends = old.ends) :
    ((g.replaceEdge e).map Edge.ends).Nodup ↔ ¬ g.IsShared id := by
  obtain ⟨hmem, holdId⟩ := mem_of_edge? hold
  rw [h.replaceEdge_iff (hid.trans holdId) (exists_edge?_iff.1 ⟨old, hold⟩)]
  -- No other edge is where this one is, because it was the only one with its ends before.
  refine and_iff_left fun other hother hne heq => hne ?_
  rw [List.inj_on_of_nodup_map h hother hmem (heq.trans hends), holdId]

end Graph

namespace Operation

variable {g g' : Graph} {op : Operation}

/-- The change puts an edge beside another with the same ends: it reroutes one to where an edge with
another identifier is, or there are several edges in the place of which it puts one. -/
def Doubles (g : Graph) : Operation → Prop
  | .rerouteEdge id source target => ∃ e, g.edge? id = some e ∧
      (∀ s, source = some s → s ∈ nodeIds g.nodes) ∧ (∀ t, target = some t → t ∈ nodeIds g.nodes) ∧
      (g.IsShared id ∨ ∃ other ∈ g.edges, other.id ≠ some id ∧
        other.ends = (Graph.movedEdge e source target).ends)
  | .setEdgeKind id _ | .setRouteKey id _ => g.IsShared id
  | _ => False

/-- A change that succeeds makes parallel edges exactly if it doubles one. -/
theorem isSimple_apply_iff (h : g.IsSimple) (hok : op.apply g = .ok g') :
    g'.IsSimple ↔ ¬ op.Doubles g := by
  cases op with
  | addNode n =>
    obtain ⟨-, rfl⟩ := Graph.addNode_eq_ok_iff.1 hok
    exact iff_of_true (Graph.isSimple_rebuild.2 h) fun hdoubles => hdoubles
  | moveNode id x y =>
    obtain ⟨n, -, rfl⟩ := Graph.modifyNode_eq_ok_iff.1 hok
    exact iff_of_true (Graph.isSimple_rebuild.2 h) fun hdoubles => hdoubles
  | updateNode id changes =>
    obtain ⟨n, -, rfl⟩ := Graph.modifyNode_eq_ok_iff.1 hok
    exact iff_of_true (Graph.isSimple_rebuild.2 h) fun hdoubles => hdoubles
  | toggleTool id tool =>
    obtain ⟨n, -, rfl⟩ := Graph.modifyNode_eq_ok_iff.1 hok
    exact iff_of_true (Graph.isSimple_rebuild.2 h) fun hdoubles => hdoubles
  | removeNode id =>
    obtain ⟨-, rfl⟩ := Graph.removeNode_eq_ok_iff.1 hok
    exact iff_of_true (Graph.isSimple_rebuild.2 (h.filter _)) fun hdoubles => hdoubles
  | connect source target id =>
    obtain ⟨-, -, rfl⟩ := Graph.connect_eq_ok_iff.1 hok
    -- This is the change that looks for an edge with the same ends before it makes one.
    refine iff_of_true ?_ fun hdoubles => hdoubles
    split
    · exact h
    · next hnew => exact Graph.isSimple_rebuild.2 (h.concat (Bool.eq_false_iff.2 hnew))
  | removeEdge id =>
    obtain ⟨-, rfl⟩ := Graph.removeEdge_eq_ok_iff.1 hok
    exact iff_of_true (Graph.isSimple_rebuild.2 (h.filter _)) fun hdoubles => hdoubles
  | rerouteEdge id source target =>
    obtain ⟨e, he, hsource, htarget, rfl⟩ := Graph.rerouteEdge_eq_ok_iff.1 hok
    have hdoubles : Doubles g (.rerouteEdge id source target) ↔ g.IsShared id ∨
        ∃ other ∈ g.edges, other.id ≠ some id ∧
          other.ends = (Graph.movedEdge e source target).ends := by
      simp only [Doubles, he, Option.some.injEq, exists_eq_left']
      exact ⟨fun h => h.2.2, fun h => ⟨hsource, htarget, h⟩⟩
    have hid : (Graph.movedEdge e source target).id = some id := (mem_of_edge? he).2
    rw [hdoubles, Graph.isSimple_rebuild, h.replaceEdge_iff hid (Graph.exists_edge?_iff.1 ⟨e, he⟩)]
    simp only [not_or, not_exists, not_and, ne_eq]
  | setEdgeKind id kind =>
    obtain ⟨e, he, rfl⟩ := Graph.setEdgeKind_eq_ok_iff.1 hok
    rw [Graph.isSimple_rebuild]
    exact h.replaceEdge_of_ends_iff he rfl (Edge.ends_eq_iff.2 ⟨rfl, rfl⟩)
  | setRouteKey id key =>
    obtain ⟨e, he, rfl⟩ := Graph.setRouteKey_eq_ok_iff.1 hok
    rw [Graph.isSimple_rebuild]
    exact h.replaceEdge_of_ends_iff he rfl (Edge.ends_eq_iff.2 ⟨rfl, rfl⟩)

/-- A change that doubles an edge succeeds: nothing checks it. -/
theorem Doubles.exists_apply_eq_ok (h : op.Doubles g) : ∃ g', op.apply g = .ok g' := by
  cases op with
  | rerouteEdge id source target =>
    obtain ⟨e, he, hsource, htarget, -⟩ := h
    exact ⟨_, Graph.rerouteEdge_eq_ok_iff.2 ⟨e, he, hsource, htarget, rfl⟩⟩
  | setEdgeKind id kind =>
    obtain ⟨e, he⟩ := Graph.IsShared.exists_edge? h
    exact ⟨_, Graph.setEdgeKind_eq_ok_iff.2 ⟨e, he, rfl⟩⟩
  | setRouteKey id key =>
    obtain ⟨e, he⟩ := Graph.IsShared.exists_edge? h
    exact ⟨_, Graph.setRouteKey_eq_ok_iff.2 ⟨e, he, rfl⟩⟩
  | _ => cases h

/-- A change that is tried makes parallel edges exactly if it doubles one. -/
theorem isSimple_attempt_iff (h : g.IsSimple) : (op.attempt g).IsSimple ↔ ¬ op.Doubles g := by
  rw [attempt]
  split
  · next hok => exact isSimple_apply_iff h hok
  · next hfail =>
    refine iff_of_true h fun hdoubles => ?_
    obtain ⟨g', hok⟩ := hdoubles.exists_apply_eq_ok
    rw [hok] at hfail
    cases hfail

/-! ## Runs -/

/-- No two edges are parallel all along a run from a graph without parallel edges exactly if no step
of the run doubles an edge. -/
theorem run_isSimple_iff {ops : List Operation} (h : g.IsSimple) :
    (∀ before, before <+: ops → (run before g).IsSimple) ↔
      ∀ before op, before ++ [op] <+: ops → ¬ op.Doubles (run before g) :=
  forall_run_iff (fun _ h => h) (fun _ _ => isSimple_attempt_iff)
    (fun _ _ h hop => (isSimple_attempt_iff h).2 hop) h

/-- The change is one that gives an edge other ends. -/
def reroutes : Operation → Bool
  | .rerouteEdge .. => true
  | _ => false

/-- Where no edges share an identifier, only rerouting an edge can double one. -/
theorem Doubles.reroutes (hdoubles : op.Doubles g) (h : g.IdsDistinct) : op.reroutes = true := by
  cases op with
  | rerouteEdge => rfl
  | setEdgeKind => exact absurd hdoubles (Graph.not_isShared h.edges)
  | setRouteKey => exact absurd hdoubles (Graph.not_isShared h.edges)
  | _ => cases hdoubles

/-- Along every run from an empty graph, no two edges have the same source and the same target
exactly if no step reroutes an edge to where another is, or puts an edge in the place of several.
There is no such step in a run that reroutes no edge and connects nodes under new identifiers. -/
theorem run_empty_isSimple_iff (name : String) (ops : List Operation) :
    ((∀ before, before <+: ops → (run before { name := name }).IsSimple) ↔
      ∀ before op, before ++ [op] <+: ops → ¬ op.Doubles (run before { name := name })) ∧
    (NeverReusesId ops { name := name } → (∀ op ∈ ops, op.reroutes = false) →
      ∀ before, before <+: ops → (run before { name := name }).IsSimple) := by
  have hiff := @run_isSimple_iff { name := name } ops List.nodup_nil
  refine ⟨hiff, fun hids hops => hiff.2 fun before op hinitial hdoubles => ?_⟩
  have hdistinct : (run before { name := name }).IdsDistinct :=
    idsDistinct_run (idsDistinct_empty name)
      (hids.of_isPrefix ((List.prefix_append _ _).trans hinitial))
  have hop : op ∈ ops := hinitial.subset (by simp)
  exact absurd (hdoubles.reroutes hdistinct) (by simp [hops op hop])

/-- An edge that is rerouted to where another is. -/
theorem not_isSimple_run : ¬ ∀ (name : String) (ops : List Operation),
    (∀ op ∈ ops, op.IsAdmissible) → (run ops { name := name }).IsSimple := by
  intro h
  have ha : Node.IsMade { id := "a" } := .read .program (.obj [("id", .str "a")]) rfl
  have hb : Node.IsMade { id := "b" } := .read .program (.obj [("id", .str "b")]) rfl
  have hc : Node.IsMade { id := "c" } := .read .program (.obj [("id", .str "c")]) rfl
  have hrerouted := h "Agent Flow" [.addNode { id := "a" }, .addNode { id := "b" },
    .addNode { id := "c" }, .connect "a" "b" "e1", .connect "a" "c" "e2",
    .rerouteEdge "e2" none (some "b")] (by simp [IsAdmissible, ha, hb, hc])
  revert hrerouted
  decide +kernel

end Operation

end AgentFlow
