import AgentFlow.Proofs.Editor.Changes
import AgentFlow.Proofs.Editor.Runs

/-!
# Identifiers of edges under edit

A change keeps the identifiers of nodes distinct, and those of edges unless it connects two nodes
under an identifier that an edge has already, which is not checked (`Operation.ReusesId`). So the
identifiers of edges stay distinct along a run exactly if no step of it reuses one, and as long as
they do, a change that is about an edge is about no other (`run_empty_edgeIds`).
-/

namespace AgentFlow

/-- Which edge it is: its identifier and its ends. -/
def Edge.link (e : Edge) : Option String × String × String := (e.id, e.source, e.target)

theorem Edge.link_eq_iff {e e' : Edge} :
    e'.link = e.link ↔ e'.id = e.id ∧ e'.source = e.source ∧ e'.target = e.target := by
  simp [Edge.link]

theorem Routing.Routed.link_eq {branching : Edge → Bool} {e e' : Edge} (h : Routed branching e e') :
    e'.link = e.link :=
  Edge.link_eq_iff.2 ⟨h.id_eq, h.source_eq, h.target_eq⟩

@[simp] theorem Routing.map_link_normalize {nodes : List Node} {edges : List Edge}
    {pinned : List String} : (normalize nodes edges pinned).map Edge.link = edges.map Edge.link :=
  map_eq_of_forall₂ (fun _ _ h => h.link_eq) forall₂_route

@[simp] theorem Routing.edgeIds_normalize {nodes : List Node} {edges : List Edge}
    {pinned : List String} : edgeIds (normalize nodes edges pinned) = edgeIds edges :=
  edgeIds_congr (map_normalize_eq fun _ _ hid _ _ => hid)

namespace Operation

variable {g g' : Graph} {op : Operation}

/-! ## One change -/

/-- Whether an edge stays depends only on which edge it is. -/
theorem keepsEdge_congr {e e' : Edge} (h : e'.link = e.link) :
    op.keepsEdge e' = op.keepsEdge e := by
  obtain ⟨hid, hsource, htarget⟩ := Edge.link_eq_iff.1 h
  cases op <;> simp only [keepsEdge, hid, hsource, htarget]

/-- The identifiers after a change are those of the nodes that stay and of the new ones. -/
theorem nodeIds_nodesAfter (op : Operation) (nodes : List Node) :
    nodeIds (op.nodesAfter nodes) = nodeIds (nodes.filter op.keepsNode) ++ nodeIds op.newNodes := by
  rw [nodesAfter, nodeIds, List.map_append, List.map_map]
  exact congrArg (· ++ _) (List.map_congr_left fun n _ => op.id_editNode n)

/-- A change keeps the identifiers of nodes distinct: a new one is checked. -/
theorem nodup_nodeIds_nodesAfter (h : g.IdsDistinct)
    (hop : op.IsPossible (nodeIds g.nodes) (edgeIds g.edges)) :
    (nodeIds (op.nodesAfter g.nodes)).Nodup := by
  have hkept : (nodeIds (g.nodes.filter op.keepsNode)).Nodup :=
    h.nodes.sublist (List.filter_sublist.map _)
  rw [nodeIds_nodesAfter]
  cases op with
  | addNode n =>
    have hnew : n.id ∉ nodeIds g.nodes := hop
    refine hkept.append (List.nodup_singleton _) ?_
    simpa [keepsNode, newNodes, nodeIds] using hnew
  | _ => simpa [newNodes, nodeIds] using hkept

/-- The change connects two nodes, and its edge gets an identifier that another edge has. -/
def ReusesId (g : Graph) : Operation → Prop
  | .connect source target id => source ∈ nodeIds g.nodes ∧ target ∈ nodeIds g.nodes ∧
      g.isConnected source target = false ∧ id ∈ edgeIds g.edges
  | _ => False

/-- A change keeps those of edges distinct exactly if it reuses none, for this is not checked. -/
theorem nodup_edgeIds_edgesAfter_iff (h : g.IdsDistinct)
    (hop : op.IsPossible (nodeIds g.nodes) (edgeIds g.edges)) (hnew : op.isRepeated g = false) :
    (edgeIds (op.edgesAfter g.edges)).Nodup ↔ ¬ op.ReusesId g := by
  have hkept : (edgeIds (g.edges.filter op.keepsEdge)).Nodup :=
    h.edges.sublist (List.filter_sublist.filterMap _)
  rw [edgeIds_edgesAfter]
  cases op with
  -- This is the only change that brings in an edge.
  | connect source target id =>
    have hkeeps : g.edges.filter (keepsEdge (.connect source target id)) = g.edges :=
      List.filter_true _
    have hreuses : ReusesId g (.connect source target id) ↔ id ∈ edgeIds g.edges :=
      ⟨fun hreuse => hreuse.2.2.2, fun hid => ⟨hop.1, hop.2, hnew, hid⟩⟩
    have hids : edgeIds (newEdges (.connect source target id)) = [id] := rfl
    rw [hkeeps, hreuses, hids, ← List.concat_eq_append, List.nodup_concat]
    exact and_iff_left h.edges
  | _ => simpa [newEdges, ReusesId, edgeIds] using hkept

/-- A change that reuses an identifier succeeds and is no repetition. -/
theorem ReusesId.isEffective (h : op.ReusesId g) :
    op.IsPossible (nodeIds g.nodes) (edgeIds g.edges) ∧ op.isRepeated g = false := by
  cases op with
  | connect source target id => exact ⟨⟨h.1, h.2.1⟩, h.2.2.1⟩
  | _ => cases h

/-- A change that is tried leaves a graph alone, or has its nodes and edges brought into canonical
form. -/
theorem attempt_cases (op : Operation) (h : g.IdsDistinct) :
    (op.IsPossible (nodeIds g.nodes) (edgeIds g.edges) ∧ op.isRepeated g = false) ∧
        op.attempt g =
          g.rebuild (op.nodesAfter g.nodes) (op.edgesAfter g.edges) (op.pins g.edges) ∨
      ¬ (op.IsPossible (nodeIds g.nodes) (edgeIds g.edges) ∧ op.isRepeated g = false) ∧
        op.attempt g = g := by
  rw [attempt]
  split
  · next g' hok =>
    obtain ⟨hop, rfl⟩ := (apply_eq_ok_iff h).1 hok
    cases hrepeated : op.isRepeated g with
    | true => exact Or.inr ⟨by simp, by simp⟩
    | false => exact Or.inl ⟨⟨hop, rfl⟩, by simp⟩
  · next hfail =>
    refine Or.inr ⟨fun heffective => ?_, rfl⟩
    rw [(apply_eq_ok_iff h).2 ⟨heffective.1, rfl⟩] at hfail
    cases hfail

/-- A change that is tried keeps the identifiers of nodes distinct. -/
theorem nodup_nodeIds_attempt (op : Operation) (h : g.IdsDistinct) :
    (nodeIds (op.attempt g).nodes).Nodup := by
  rcases attempt_cases op h with ⟨⟨hop, -⟩, heq⟩ | ⟨-, heq⟩
  · rw [heq]
    show (nodeIds (inferRoles _ _)).Nodup
    rw [nodeIds_inferRoles]
    exact nodup_nodeIds_nodesAfter h hop
  · rw [heq]
    exact h.nodes

/-- A change that is tried keeps the identifiers of edges distinct exactly if it reuses none. -/
theorem nodup_edgeIds_attempt_iff (h : g.IdsDistinct) :
    (edgeIds (op.attempt g).edges).Nodup ↔ ¬ op.ReusesId g := by
  rcases attempt_cases op h with ⟨⟨hop, hnew⟩, heq⟩ | ⟨hineffective, heq⟩
  · rw [heq, ← nodup_edgeIds_edgesAfter_iff h hop hnew]
    show (edgeIds (Routing.normalize _ _ _)).Nodup ↔ _
    rw [Routing.edgeIds_normalize]
  · rw [heq]
    exact iff_of_true h.edges fun hreuse => hineffective hreuse.isEffective

/-! ## Changes about one edge -/

/-- A change that is about one edge leaves the others as they are. -/
theorem keptEdges_eq_self {id : String} (hop : op.edgeId? = some id) {es : List Edge}
    (hes : id ∉ edgeIds es) : (es.filter op.keepsEdge).map op.editEdge = es := by
  have hne : ∀ e ∈ es, e.id ≠ some id := fun e he hid => hes (mem_edgeIds.2 ⟨e, he, hid⟩)
  have hkeeps : ∀ e ∈ es, op.keepsEdge e = true := by
    intro e he
    cases op with
    | removeEdge id' =>
      obtain rfl : id' = id := Option.some.inj hop
      exact decide_eq_true (hne e he)
    | removeNode id' => cases hop
    | _ => rfl
  have hedit : ∀ e ∈ es, op.editEdge e = e := fun e he =>
    editEdge_of_ne fun id' hid' => by
      rw [hop, Option.some.injEq] at hid'
      exact hid' ▸ hne e he
  rw [List.filter_eq_self.2 hkeeps, List.map_congr_left hedit, List.map_id']

/-- Between two graphs, the one edge with an identifier goes, or else may get other ends; every
other edge stays, in its place and with its identifier and its ends. -/
def IsAboutOne (op : Operation) (id : String) (g g' : Graph) : Prop :=
  ∃ before e after, g.edges = before ++ e :: after ∧ e.id = some id ∧
    id ∉ edgeIds (before ++ after) ∧ g'.edges.map Edge.link = before.map Edge.link ++
      (if op.keepsEdge e then [(op.editEdge e).link] else []) ++ after.map Edge.link

/-- Where identifiers are distinct, a change that is about an edge is about no other. -/
theorem isAboutOne_apply (h : g.IdsDistinct) {id : String} (hop : op.edgeId? = some id)
    (hok : op.apply g = .ok g') : op.IsAboutOne id g g' := by
  obtain ⟨hpossible, rfl⟩ := (apply_eq_ok_iff h).1 hok
  have hthere : id ∈ edgeIds g.edges := by
    cases op <;> cases hop
    case rerouteEdge => exact hpossible.1
    all_goals exact hpossible
  -- The change connects nothing, so it brings in no edge and is no repetition.
  have hnew : op.newEdges = [] := by cases op <;> first | rfl | cases hop
  have hrepeated : op.isRepeated g = false := by cases op <;> first | rfl | cases hop
  obtain ⟨e, he, hid⟩ := mem_edgeIds.1 hthere
  obtain ⟨before, after, hsplit, hothers⟩ := exists_split_of_mem h.edges he hid
  refine ⟨before, e, after, hsplit, hid, hothers, ?_⟩
  rw [edgeIds_append, List.mem_append, not_or] at hothers
  rw [hrepeated, if_neg Bool.false_ne_true]
  show (Routing.normalize _ _ _).map Edge.link = _
  rw [Routing.map_link_normalize, hsplit, edgesAfter_append_cons, edgesAfter, hnew,
    keptEdges_eq_self hop hothers.1, keptEdges_eq_self hop hothers.2]
  cases op.keepsEdge e <;> simp

/-! ## Runs -/

/-- No step of a run reuses an identifier. -/
def NeverReusesId (ops : List Operation) (g : Graph) : Prop :=
  ∀ before op, before ++ [op] <+: ops → ¬ op.ReusesId (run before g)

theorem NeverReusesId.of_isPrefix {before ops : List Operation} (h : NeverReusesId ops g)
    (hbefore : before <+: ops) : NeverReusesId before g :=
  fun earlier op hinitial => h earlier op (hinitial.trans hbefore)

/-- A step that reuses no identifier keeps them distinct. -/
theorem idsDistinct_attempt (h : g.IdsDistinct) (hop : ¬ op.ReusesId g) :
    (op.attempt g).IdsDistinct :=
  ⟨nodup_nodeIds_attempt op h, (nodup_edgeIds_attempt_iff h).2 hop⟩

/-- As long as no step reuses an identifier, identifiers stay distinct. -/
theorem idsDistinct_run {ops : List Operation} (h : g.IdsDistinct) (hops : NeverReusesId ops g) :
    (run ops g).IdsDistinct :=
  run_of_avoids (fun _ _ => idsDistinct_attempt) h hops

/-- A run in which the identifiers of edges are always distinct is one without reuse. -/
theorem run_edgeIds_iff {ops : List Operation} (h : g.IdsDistinct) :
    (∀ before, before <+: ops → (edgeIds (run before g).edges).Nodup) ↔ NeverReusesId ops g :=
  forall_run_iff (fun _ h => h.edges) (fun _ _ => nodup_edgeIds_attempt_iff)
    (fun _ _ => idsDistinct_attempt) h

/-! ## Edges without identifiers -/

/-- A change brings in no edge without an identifier. -/
theorem hasId_attempt (h : g.IdsDistinct) (hids : ∀ e ∈ g.edges, e.id ≠ none) :
    ∀ e ∈ (op.attempt g).edges, e.id ≠ none := by
  rcases attempt_cases op h with ⟨-, heq⟩ | ⟨-, heq⟩
  · rw [heq]
    show ∀ e' ∈ Routing.normalize _ _ _, e'.id ≠ none
    intro e' he'
    obtain ⟨e, he, hrouted⟩ := Routing.exists_of_mem_route he'
    rw [hrouted.id_eq]
    -- The edge was there before and has been edited, or it is new.
    rcases List.mem_append.1 he with he | he
    · obtain ⟨old, hold, rfl⟩ := List.mem_map.1 he
      rw [id_editEdge]
      exact hids old (List.mem_filter.1 hold).1
    · cases op with
      | connect => simp [List.mem_singleton.1 he]
      | _ => cases he
  · rw [heq]
    exact hids

/-- A run from edges with identifiers leaves none without. -/
theorem hasId_run {ops : List Operation} (h : g.IdsDistinct) (hops : NeverReusesId ops g)
    (hids : ∀ e ∈ g.edges, e.id ≠ none) : ∀ e ∈ (run ops g).edges, e.id ≠ none := by
  have hrun : (run ops g).IdsDistinct ∧ ∀ e ∈ (run ops g).edges, e.id ≠ none := by
    refine run_of_avoids (P := fun g => g.IdsDistinct ∧ ∀ e ∈ g.edges, e.id ≠ none)
      (fun g op h hop => ?_) ⟨h, hids⟩ hops
    exact ⟨idsDistinct_attempt h.1 hop, hasId_attempt h.1 h.2⟩
  exact hrun.2

/-- If no two edges agree in their identifiers, those that are there are distinct. -/
theorem nodup_edgeIds_of_map {edges : List Edge} (h : (edges.map (·.id)).Nodup) :
    (edgeIds edges).Nodup := by
  rw [edgeIds, List.Nodup, List.pairwise_filterMap]
  refine (List.pairwise_map.1 h).imp fun hne id hid id' hid' heq => hne ?_
  rw [hid, hid', heq]

/-- The converse holds if all edges have one. -/
theorem nodup_map_of_edgeIds {edges : List Edge} (h : (edgeIds edges).Nodup)
    (hids : ∀ e ∈ edges, e.id ≠ none) : (edges.map (·.id)).Nodup := by
  rw [edgeIds, List.Nodup, List.pairwise_filterMap] at h
  refine List.pairwise_map.2 (h.imp_of_mem fun {e e'} he _ hne heq => ?_)
  obtain ⟨id, hid⟩ := Option.ne_none_iff_exists'.1 (hids e he)
  exact hne id hid id (heq ▸ hid) rfl

theorem idsDistinct_empty (name : String) : ({ name := name } : Graph).IdsDistinct :=
  ⟨List.nodup_nil, List.nodup_nil⟩

/-- Along every run from an empty graph, edges have distinct identifiers exactly if no step connects
two nodes under the identifier of an edge. After such a run, a change that is about an edge is about
no other. -/
theorem run_empty_edgeIds (name : String) (ops : List Operation) :
    ((∀ before, before <+: ops → ((run before { name := name }).edges.map (·.id)).Nodup) ↔
      NeverReusesId ops { name := name }) ∧
    (NeverReusesId ops { name := name } → ∀ (op : Operation) (id : String) (g' : Graph),
      op.edgeId? = some id → op.apply (run ops { name := name }) = .ok g' →
      op.IsAboutOne id (run ops { name := name }) g') := by
  have hempty := idsDistinct_empty name
  refine ⟨⟨fun hall => ?_, fun hops before hbefore => ?_⟩, fun hops op id g' hop hok => ?_⟩
  · refine (run_edgeIds_iff hempty).1 fun before hbefore => ?_
    exact nodup_edgeIds_of_map (hall before hbefore)
  · exact nodup_map_of_edgeIds ((run_edgeIds_iff hempty).2 hops before hbefore)
      (hasId_run hempty (hops.of_isPrefix hbefore) (by simp))
  · exact isAboutOne_apply (idsDistinct_run hempty hops) hop hok

/-- Two edges that are connected under one identifier. -/
theorem not_nodup_edgeIds_run : ¬ ∀ (name : String) (ops : List Operation),
    (∀ op ∈ ops, op.IsAdmissible) → ((run ops { name := name }).edges.map (·.id)).Nodup := by
  intro h
  have ha : Node.IsMade { id := "a" } := .read .program (.obj [("id", .str "a")]) rfl
  have hb : Node.IsMade { id := "b" } := .read .program (.obj [("id", .str "b")]) rfl
  have hc : Node.IsMade { id := "c" } := .read .program (.obj [("id", .str "c")]) rfl
  have htwice := h "Agent Flow" [.addNode { id := "a" }, .addNode { id := "b" },
    .addNode { id := "c" }, .connect "a" "b" "e", .connect "a" "c" "e"]
    (by simp [IsAdmissible, ha, hb, hc])
  revert htwice
  decide +kernel

end Operation

end AgentFlow
