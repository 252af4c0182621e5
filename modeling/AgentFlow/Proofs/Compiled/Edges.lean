import AgentFlow.Proofs.Canonical
import AgentFlow.Proofs.Compiled.View
import AgentFlow.Proofs.Plan.DuplicateKeys
import AgentFlow.Proofs.Plan.Transitions

/-!
# Importing the edges of a view

The edges that a view shows between planned nodes are those of the graph, under the keys of their
ends (`importEdges_view_perm`): the plain edges and the routes of a plan are all its edges, and
where no source has a route key twice, every route has the key of its edge. Routing the imported
edges gives each the kind and the key that it had (`map_unnamed_normalize_perm`).
-/

namespace AgentFlow

def Edge.unnamed (e : Edge) : Edge := { e with id := none }

namespace Compiled

variable {nodes : List Node} {edges : List Edge} {entryId : Option String} {p : Plan}

/-! ## Imported edges -/

def isInner (e : RunningEdge) : Bool := !isTerminal e.source && !isTerminal e.target

/-- The number of an edge goes into its identifier only. -/
theorem map_unnamed_importEdges (es : List RunningEdge) :
    (importEdges es).map Edge.unnamed =
      (es.filter isInner).map fun e => (importEdge 0 e).unnamed :=
  map_filter_mapIdx (p := isInner) (f := importEdge) (g := Edge.unnamed) fun _ _ => rfl

/-! ## The edges that are kept -/

/-- Edges that touch the start or the end are dropped. -/
theorem filter_isInner_map_eq_nil {f : String → RunningEdge} (hf : ∀ key, isInner (f key) = false)
    (keys : List String) : (keys.map f).filter isInner = [] := by
  rw [List.filter_eq_nil_iff]
  intro e he
  obtain ⟨key, -, rfl⟩ := List.mem_map.1 he
  rw [hf key]
  exact Bool.false_ne_true

/-- The edges that touch neither the start nor the end are the plain edges and the routes. -/
theorem filter_isInner_runningEdges (h : Plan.Resolved nodes edges p) :
    (runningEdges p).filter isInner =
      p.edges.map .ofEdge ++ p.branches.flatMap fun b => b.routes.map (.ofRoute b) := by
  have hentry : (p.entry.toList.map RunningEdge.ofEntry).filter isInner = [] :=
    filter_isInner_map_eq_nil (fun key => by simp [isInner, isTerminal, RunningEdge.ofEntry]) _
  have hsinks : (p.sinks.map RunningEdge.ofSink).filter isInner = [] :=
    filter_isInner_map_eq_nil (fun key => by simp [isInner, isTerminal, RunningEdge.ofSink]) _
  have hplain : ∀ e ∈ p.edges.map RunningEdge.ofEdge, isInner e = true := by
    intro e he
    obtain ⟨edge, hedge, rfl⟩ := List.mem_map.1 he
    obtain ⟨hsource, htarget⟩ := h.edges edge hedge
    simp [isInner, RunningEdge.ofEdge, isTerminal_of_mem_keys h hsource,
      isTerminal_of_mem_keys h htarget]
  have hroutes : ∀ e ∈ p.branches.flatMap (fun b => b.routes.map (RunningEdge.ofRoute b)),
      isInner e = true := by
    intro e he
    obtain ⟨b, hb, he⟩ := List.mem_flatMap.1 he
    obtain ⟨r, hr, rfl⟩ := List.mem_map.1 he
    have hsource := h.sources.subset (List.mem_map_of_mem hb)
    simp [isInner, RunningEdge.ofRoute, isTerminal_of_mem_keys h hsource,
      isTerminal_of_mem_keys h (h.targets b hb r hr)]
  rw [runningEdges, List.filter_append, List.filter_append, List.filter_append, hentry, hsinks,
    List.filter_eq_self.2 hplain, List.filter_eq_self.2 hroutes, List.nil_append, List.append_nil]

/-! ## The edges of a plan -/

/-- The edge between the keys of its ends, without its identifier. -/
def betweenKeys (nodes : List Node) (e : Edge) : Edge :=
  { e.unnamed with source := Plan.keyOf nodes e.source, target := Plan.keyOf nodes e.target }

/-- The edge between the keys of its ends as it is before routing: with its route key, but plain. -/
def unrouted (nodes : List Node) (e : Edge) : Edge := { betweenKeys nodes e with kind := .normal }

/-- Conditional edges have route keys, without blanks around them, and no other edge has one. -/
structure KeysSettled (edges : List Edge) : Prop where
  keyed : Plan.IsKeyed edges
  conditional : ∀ e ∈ edges, e.isConditional = true → e.routeKey = some (Routing.explicitKey e)
  plain : ∀ e ∈ edges, e.isConditional = false → e.routeKey = none

/-- Plain edges are imported as they are in the graph. -/
theorem map_unnamed_ofEdge (h : Plan.Parts nodes edges entryId p) (hsettled : KeysSettled edges) :
    p.edges.map (fun edge => (importEdge 0 (.ofEdge edge)).unnamed) =
      (unconditional (p.ids.flatMap (edgesFrom edges))).map (unrouted nodes) := by
  rw [h.edges_eq, List.map_map]
  refine List.map_congr_left fun e he => ?_
  obtain ⟨hmem, hplain⟩ := Plan.mem_unconditional.1 he
  obtain ⟨id, -, hfrom⟩ := List.mem_flatMap.1 hmem
  have hkey : e.routeKey = none := hsettled.plain e (mem_edgesFrom.1 hfrom).1 hplain
  rw [unrouted, betweenKeys, Edge.unnamed, hkey]
  rfl

/-- The routes of a branch are imported as the edges they were made of, before routing. -/
theorem map_unnamed_ofRoute (hsettled : KeysSettled edges) {id : String}
    (hkeys : (Plan.explicitKeys edges id).Nodup) {b : Branch}
    (hb : b = Plan.branchFrom nodes id (conditionalFrom edges id)) :
    b.routes.map (fun r => (importEdge 0 (.ofRoute b r)).unnamed) =
      (conditionalFrom edges id).map (unrouted nodes) := by
  have hsource : b.source = Plan.keyOf nodes id := by rw [hb, Plan.source_branchFrom]
  have hroutes : b.routes = (conditionalFrom edges id).map fun e =>
      ⟨Routing.explicitKey e, Plan.keyOf nodes e.target⟩ := by
    rw [hb, Plan.routes_branchFrom_of_nodup hsettled.keyed hkeys]
  rw [hroutes, List.map_map]
  refine List.map_congr_left fun e he => ?_
  obtain ⟨hmem, rfl, hconditional⟩ := mem_conditionalFrom.1 he
  have hkey : e.routeKey = some (Routing.explicitKey e) := hsettled.conditional e hmem hconditional
  rw [unrouted, betweenKeys, Edge.unnamed, hkey, ← hsource]
  rfl

/-- So all routes are the conditional edges, node by node. -/
theorem flatMap_unnamed_ofRoute (h : Plan.Parts nodes edges entryId p)
    (hsettled : KeysSettled edges) (hdistinct : ∀ id, (Plan.explicitKeys edges id).Nodup) :
    p.branches.flatMap (fun b => b.routes.map fun r => (importEdge 0 (.ofRoute b r)).unnamed) =
      ((p.ids.flatMap (edgesFrom edges)).filter (·.isConditional)).map (unrouted nodes) := by
  have hskip : (p.ids.filter (conditionalFrom edges · ≠ [])).flatMap
      (fun id => (conditionalFrom edges id).map (unrouted nodes)) =
        p.ids.flatMap fun id => (conditionalFrom edges id).map (unrouted nodes) := by
    refine flatMap_filter_of_eq_nil fun id hid => ?_
    -- A node without a branch has no conditional edges.
    have hnil : conditionalFrom edges id = [] := by simpa using hid
    rw [hnil]
    rfl
  rw [h.branches_eq, List.flatMap_map, List.filter_flatMap, List.map_flatMap]
  refine Eq.trans (List.flatMap_congr fun id _ => ?_) hskip
  exact map_unnamed_ofRoute hsettled (hdistinct id) rfl

/-- **The imported edges** of a view are those of the graph, with the keys of their ends and their
route keys. -/
theorem importEdges_view_perm (h : plan nodes edges entryId = .ok p) (hsettled : KeysSettled edges)
    (hdistinct : ∀ id, (Plan.explicitKeys edges id).Nodup) {flow : RunningFlow}
    (hview : IsViewOf p flow) :
    ((importEdges flow.edges).map Edge.unnamed).Perm (edges.map (unrouted nodes)) := by
  have hgraph : Intact nodes edges := (Plan.plan_eq_ok_iff_assemble.1 h).1
  have hparts := Plan.parts_of_plan h
  let grouped := p.ids.flatMap (edgesFrom edges)
  have hgrouped : grouped.Perm edges :=
    flatMap_groups_perm (hparts.nodup_ids hgraph.nodup_ids) fun e he =>
      hparts.mem_ids.2 (hgraph.ends e he).1
  -- The plan has the plain edges first and the routes after them, so the order changes twice.
  have hsplit : (unconditional grouped ++ grouped.filter (·.isConditional)).Perm grouped :=
    List.perm_append_comm.trans (List.filter_append_perm (·.isConditional) grouped)
  have himported : ((runningEdges p).filter isInner).map (fun e => (importEdge 0 e).unnamed) =
      (unconditional grouped ++ grouped.filter (·.isConditional)).map (unrouted nodes) := by
    rw [filter_isInner_runningEdges (Plan.resolved_of_plan_eq_ok h), List.map_append, List.map_map,
      List.map_flatMap, List.map_append, ← map_unnamed_ofEdge hparts hsettled,
      ← flatMap_unnamed_ofRoute hparts hsettled hdistinct]
    simp only [List.map_map]
    rfl
  rw [map_unnamed_importEdges]
  refine ((hview.edges.filter isInner).map _).trans ?_
  rw [himported]
  exact (hsplit.trans hgrouped).map _

/-! ## Graphs in canonical form -/

/-- In canonical form, keys are settled. -/
theorem keysSettled_of_isCanonical (h : IsCanonical nodes edges) : KeysSettled edges := by
  have hsettled := (isCanonical_iff.1 h).1
  constructor
  case keyed =>
    rw [← h.normalize_eq_self nodes]
    exact Plan.isKeyed_normalize nodes edges []
  case conditional =>
    intro e he hconditional
    have hkind : e.kind = .conditional := of_decide_eq_true hconditional
    exact ((hsettled e he).explicitKey_eq ((hsettled e he).kind_eq_conditional_iff.1 hkind)).2
  case plain =>
    intro e he hplain
    have hkind : ¬ e.kind = .conditional := of_decide_eq_false hplain
    have hleft := hsettled e he
    rw [Routing.IsSettled, if_neg fun hbranching => hkind
      ((hsettled e he).kind_eq_conditional_iff.2 hbranching)] at hleft
    exact hleft.2

/-- Without a finding about it, no source has a route key twice. -/
theorem nodup_explicitKeys (hkeyed : Plan.IsKeyed edges)
    (hissues : ∀ issue ∈ validate nodes edges entryId, issue.code ≠ "duplicate_route_key")
    (id : String) : (Plan.explicitKeys edges id).Nodup := by
  by_contra hrepeated
  obtain ⟨issue, hissue, hcode, -⟩ :=
    (Plan.reportsDuplicateKey_iff_explicitKeys hkeyed).2 hrepeated
  exact hissues issue hissue hcode

/-! ## Routing the imported edges -/

/-- The edge as it is routed among some edges, if it keeps its key. -/
def rerouted (edges : List Edge) (e : Edge) : Edge :=
  if 1 < outDegree edges e.source then { e with kind := .conditional } else Routing.plainEdge e

/-- An edge that needs a key has one, without blanks around it. -/
def KeysReady (edges : List Edge) : Prop :=
  ∀ e ∈ edges, 1 < outDegree edges e.source →
    Routing.explicitKey e ≠ "" ∧ e.routeKey = some (Routing.explicitKey e)

/-- Where the keys are ready, routing only sets the kinds and drops the keys of plain edges. -/
theorem normalize_eq_map_rerouted (nodes : List Node) {core : List Edge} (hready : KeysReady core) :
    Routing.normalize nodes core [] = core.map (rerouted core) := by
  -- Of each edge, routing leaves what it would leave of it alone, since no key has to be found.
  have hrouted : ∀ e ∈ core, ∀ e', Routing.Routed (Routing.isBranching nodes core []) e e' →
      e' = rerouted core e := by
    intro e he e' h
    cases h with
    | plain hbranching =>
      rw [Routing.isBranching_nil, decide_eq_false_iff_not] at hbranching
      exact (if_neg hbranching).symm
    | keyed hbranching _ hkept =>
      rw [Routing.isBranching_nil, decide_eq_true_eq] at hbranching
      obtain ⟨hne, hkey⟩ := hready e he hbranching
      rw [hkept hne, rerouted, if_pos hbranching, Routing.keyedEdge, ← hkey]
  have hsame : List.Forall₂ (fun e e' => e' = rerouted core e) core
      (Routing.normalize nodes core []) := forall₂_of_mem hrouted Routing.forall₂_route
  rw [← List.map_id (Routing.normalize ..)]
  exact map_eq_of_forall₂ (fun _ _ h => h) hsame

/-- Routing does not look at identifiers here. -/
theorem unnamed_rerouted (core : List Edge) (e : Edge) :
    (rerouted core e).unnamed = rerouted core e.unnamed := by
  show (if 1 < outDegree core e.source then _ else _ : Edge).unnamed =
    if 1 < outDegree core e.source then _ else _
  split <;> rfl

/-- An edge that routing leaves alone in its graph is routed to what it was among edges of which as
many leave the key of its source. -/
theorem rerouted_unrouted {core : List Edge} {e : Edge}
    (hsettled : Routing.IsSettled (Routing.isBranching nodes edges []) e)
    (hdegree : outDegree core (Plan.keyOf nodes e.source) = outDegree edges e.source) :
    rerouted core (unrouted nodes e) = betweenKeys nodes e := by
  have hsource : outDegree core (unrouted nodes e).source = outDegree edges e.source := hdegree
  rw [Routing.IsSettled, Routing.isBranching_nil] at hsettled
  rw [rerouted, hsource]
  by_cases hmany : 1 < outDegree edges e.source
  · rw [if_pos (decide_eq_true hmany)] at hsettled
    rw [if_pos hmany, ← hsettled.1]
    rfl
  · rw [if_neg (by simpa using hmany)] at hsettled
    rw [if_neg hmany, Routing.plainEdge, ← hsettled.1, ← hsettled.2]
    rfl

section Imported

variable {core : List Edge} (hgraph : Intact nodes edges)
  (hcore : (core.map Edge.unnamed).Perm (edges.map (unrouted nodes)))

include hgraph hcore

/-- A node's key has as many edges out of it as the node has. -/
theorem outDegree_keyOf {id : String} (hid : id ∈ nodeIds nodes) :
    outDegree core (Plan.keyOf nodes id) = outDegree edges id := by
  -- Counting does not look at the order or at identifiers.
  have hcount : (core.map Edge.unnamed).countP (·.source = Plan.keyOf nodes id) =
      (edges.map (unrouted nodes)).countP (·.source = Plan.keyOf nodes id) := hcore.countP_eq _
  rw [List.countP_map, List.countP_map] at hcount
  refine hcount.trans (List.countP_congr fun e he => ?_)
  show decide (Plan.keyOf nodes e.source = Plan.keyOf nodes id) = true ↔
    decide (e.source = id) = true
  rw [decide_eq_true_eq, decide_eq_true_eq]
  exact Plan.keyOf_inj (hgraph.ends e he).1 hid

/-- The imported edges bring the keys that routing asks for. -/
theorem keysReady_of_perm (hcanonical : IsCanonical nodes edges) : KeysReady core := by
  intro c hc hmany
  -- The imported edge stands for an edge of the graph, which has a key for the same reason.
  obtain ⟨e, he, heq⟩ := List.mem_map.1 (hcore.subset (List.mem_map_of_mem hc))
  have hsource : Plan.keyOf nodes e.source = c.source := congrArg Edge.source heq
  have hkey : (unrouted nodes e).routeKey = c.unnamed.routeKey := congrArg _ heq
  have hfork : 1 < outDegree edges e.source := by
    rw [← outDegree_keyOf hgraph hcore (hgraph.ends e he).1, hsource]
    exact hmany
  have hsettled := hcanonical.explicitKey_eq he hfork
  rw [Routing.explicitKey, show e.routeKey = c.routeKey from hkey] at hsettled
  exact hsettled

/-- **Routing the imported edges** of a view gives each the kind and the key that it had in the
graph. -/
theorem map_unnamed_normalize_perm (hcanonical : IsCanonical nodes edges) (nodes' : List Node) :
    ((Routing.normalize nodes' core []).map Edge.unnamed).Perm (edges.map (betweenKeys nodes)) := by
  have hready : KeysReady core := keysReady_of_perm hgraph hcore hcanonical
  have hleft : (Routing.normalize nodes' core []).map Edge.unnamed =
      (core.map Edge.unnamed).map (rerouted core) := by
    rw [normalize_eq_map_rerouted nodes' hready, List.map_map, List.map_map]
    exact List.map_congr_left fun e _ => unnamed_rerouted core e
  have hright : (edges.map (unrouted nodes)).map (rerouted core) =
      edges.map (betweenKeys nodes) := by
    rw [List.map_map]
    refine List.map_congr_left fun e he => ?_
    have hdegree := outDegree_keyOf hgraph hcore (hgraph.ends e he).1
    exact rerouted_unrouted ((isCanonical_iff.1 hcanonical).1 e he) hdegree
  rw [hleft, ← hright]
  exact hcore.map _

end Imported

end Compiled

end AgentFlow
