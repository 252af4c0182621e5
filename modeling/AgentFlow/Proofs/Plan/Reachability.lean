import AgentFlow.Proofs.Plan.Branches
import AgentFlow.Proofs.Validation.Findings

/-!
# Planning and validation agree on what can be reached

Validation searches along the edges between identifiers, planning along the plain edges and the
routing tables between keys. Both searches find what paths lead to, and the paths of a plan are
those of its graph (`Parts.path_keyOf_iff`). So where validation finds one entry, the plan starts at
it, and both name the same nodes as out of reach (`plan_and_validate_agree`).
-/

namespace AgentFlow

variable {nodes : List Node} {edges : List Edge} {entryId : Option String} {start id : String}

namespace Plan

variable {p : Plan}

/-! ## Paths between keys -/

/-- The plain edges of a plan are the unconditional edges of the graph. -/
theorem Parts.mem_edges_iff (h : Parts nodes edges entryId p) (hgraph : Intact nodes edges)
    {arrow : String × String} :
    arrow ∈ p.edges ↔ ∃ e ∈ edges, e.isConditional = false ∧ endKeys nodes e = arrow := by
  -- Sorting the edges by their sources keeps all of them, since every source is planned.
  have hmem : ∀ e, e ∈ p.ids.flatMap (edgesFrom edges) ↔ e ∈ edges := by
    intro e
    simp only [List.mem_flatMap, mem_edgesFrom, h.mem_ids]
    constructor
    · rintro ⟨id, -, he, -⟩
      exact he
    · intro he
      exact ⟨e.source, (hgraph.ends e he).1, he, rfl⟩
  rw [h.edges_eq]
  simp [unconditional, hmem, and_assoc]

/-- The rows of its routing tables are the conditional ones. -/
theorem Parts.mem_routes_iff (h : Parts nodes edges entryId p) (hgraph : Intact nodes edges)
    {arrow : String × String} :
    (∃ b ∈ p.branches, ∃ r ∈ b.routes, (b.source, r.target) = arrow) ↔
      ∃ e ∈ edges, e.isConditional = true ∧ endKeys nodes e = arrow := by
  constructor
  · rintro ⟨b, hb, r, hr, rfl⟩
    obtain ⟨id, -, -, rfl⟩ := h.mem_branches.1 hb
    have htarget := List.mem_map_of_mem (f := Route.target) hr
    rw [map_target_branchFrom] at htarget
    obtain ⟨e, hfrom, hkey⟩ := List.mem_map.1 htarget
    obtain ⟨he, hsource, hconditional⟩ := mem_conditionalFrom.1 hfrom
    exact ⟨e, he, hconditional, by rw [endKeys, hkey, source_branchFrom, hsource]⟩
  · rintro ⟨e, he, hconditional, rfl⟩
    have hfrom : e ∈ conditionalFrom edges e.source :=
      mem_conditionalFrom.2 ⟨he, rfl, hconditional⟩
    have htarget : keyOf nodes e.target ∈
        (branchFrom nodes e.source (conditionalFrom edges e.source)).routes.map Route.target := by
      rw [map_target_branchFrom]
      exact List.mem_map_of_mem hfrom
    obtain ⟨r, hr, hkey⟩ := List.mem_map.1 htarget
    refine ⟨_, h.mem_branches.2 ⟨_, (hgraph.ends e he).1, List.ne_nil_of_mem hfrom, rfl⟩, r, hr, ?_⟩
    rw [source_branchFrom, hkey, endKeys]

/-- The arrows of a plan are the edges of the graph, whether plain or in a routing table. -/
theorem Parts.mem_arrows_iff (h : Parts nodes edges entryId p) (hgraph : Intact nodes edges)
    {arrow : String × String} :
    arrow ∈ arrows p.edges p.branches ↔ ∃ e ∈ edges, endKeys nodes e = arrow := by
  have hroutes : arrow ∈ p.branches.flatMap (fun b => b.routes.map fun r => (b.source, r.target)) ↔
      ∃ e ∈ edges, e.isConditional = true ∧ endKeys nodes e = arrow := by
    rw [← h.mem_routes_iff hgraph]
    simp only [List.mem_flatMap, List.mem_map]
  rw [arrows, List.mem_append, h.mem_edges_iff hgraph, hroutes]
  constructor
  · rintro (⟨e, he, -, hkeys⟩ | ⟨e, he, -, hkeys⟩) <;> exact ⟨e, he, hkeys⟩
  · rintro ⟨e, he, hkeys⟩
    cases hconditional : e.isConditional
    · exact Or.inl ⟨e, he, hconditional, hkeys⟩
    · exact Or.inr ⟨e, he, hconditional, hkeys⟩

/-- A path between keys that starts at a node ends at one, and runs along edges of the graph. -/
theorem Parts.exists_of_path (h : Parts nodes edges entryId p) (hgraph : Intact nodes edges)
    (hstart : start ∈ nodeIds nodes) {key : String}
    (hpath : Path (arrows p.edges p.branches) (keyOf nodes start) key) :
    ∃ id ∈ nodeIds nodes, keyOf nodes id = key ∧ EdgePath edges start id := by
  induction hpath with
  | refl => exact ⟨start, hstart, rfl, .refl⟩
  | tail _ hstep ih =>
    -- Keys tell nodes apart, so the step is an edge out of the node that has been reached.
    obtain ⟨id, hid, rfl, hreach⟩ := ih
    obtain ⟨e, he, hkeys⟩ := (h.mem_arrows_iff hgraph).1 hstep
    obtain ⟨hsource, htarget⟩ := Prod.mk.inj hkeys
    have hends := hgraph.ends e he
    rw [keyOf_inj hends.1 hid] at hsource
    exact ⟨e.target, hends.2, htarget, hreach.tail ⟨e, he, hsource, rfl⟩⟩

/-- Paths between keys are paths between nodes. -/
theorem Parts.path_keyOf_iff (h : Parts nodes edges entryId p) (hgraph : Intact nodes edges)
    (hstart : start ∈ nodeIds nodes) (hid : id ∈ nodeIds nodes) :
    Path (arrows p.edges p.branches) (keyOf nodes start) (keyOf nodes id) ↔
      EdgePath edges start id := by
  constructor
  · intro hpath
    obtain ⟨id', hid', hkey, hreach⟩ := h.exists_of_path hgraph hstart hpath
    rwa [(keyOf_inj hid' hid).1 hkey] at hreach
  · intro hreach
    -- Every edge along the path is an arrow between the keys of its ends.
    refine Relation.ReflTransGen.lift (keyOf nodes) (fun a b hlinked => ?_) _ _ hreach
    obtain ⟨e, he, rfl, rfl⟩ := hlinked
    exact (h.mem_arrows_iff hgraph).2 ⟨e, he, rfl⟩

/-! ## The entry of a plan -/

/-- A flow starts at one of its nodes. -/
theorem mem_nodeIds_of_startsAt (h : StartsAt nodes edges entryId start) :
    start ∈ nodeIds nodes := by
  cases h with
  | chosen hid => exact hid
  | sole hn _ => exact id_mem_nodeIds hn

theorem mem_nodes_of_mem_withKeys {q : PlannedNode} (h : q ∈ withKeys nodes) : q.node ∈ nodes := by
  have hnode : q.node ∈ (withKeys nodes).map PlannedNode.node := List.mem_map_of_mem h
  rwa [map_node_withKeys] at hnode

theorem exists_mem_withKeys (hid : id ∈ nodeIds nodes) : ∃ q ∈ withKeys nodes, q.node.id = id := by
  rw [← map_id_withKeys] at hid
  exact List.mem_map.1 hid

/-- A plan starts where the flow does. -/
theorem entryKey_of_startsAt (hids : (nodeIds nodes).Nodup)
    (hstart : StartsAt nodes edges entryId start) :
    entryKey (withKeys nodes) edges entryId = (some (keyOf nodes start), false) := by
  unfold entryKey
  cases hstart with
  | chosen hid =>
    obtain ⟨q, hq, hqid⟩ := exists_mem_withKeys hid
    cases hfind : (withKeys nodes).find? fun q => some q.node.id = some start with
    | none =>
      rw [List.find?_eq_none] at hfind
      exact absurd hqid (by simpa using hfind q hq)
    | some q' =>
      have hq' : q'.node.id = start := by simpa using List.find?_some hfind
      show (some q'.key, false) = _
      rw [key_of_mem_withKeys hids (List.mem_of_find?_eq_some hfind), hq']
  -- No entry is chosen, so planning looks for a node that no edge leads to.
  | @sole n hn honly =>
    have hnone : (withKeys nodes).find? (fun q => some q.node.id = none) = none := by
      simp
    rw [hnone]
    cases hfind : (withKeys nodes).find? fun q => edges.all (·.target ≠ q.node.id) with
    | none =>
      -- The sole source stands among the nodes, so the search finds it.
      obtain ⟨q, hq, hqid⟩ := exists_mem_withKeys (id_mem_nodeIds hn)
      rw [List.find?_eq_none] at hfind
      refine absurd ((honly n hn).2 rfl) ?_
      simpa [IsSource, hqid] using hfind q hq
    | some q =>
      have hq := List.mem_of_find?_eq_some hfind
      have hsource : IsSource edges q.node := by simpa [IsSource] using List.find?_some hfind
      have hqn : q.node = n := (honly _ (mem_nodes_of_mem_withKeys hq)).1 hsource
      show (some q.key, false) = _
      rw [key_of_mem_withKeys hids hq, hqn]

/-- The keys out of reach are those of the nodes that no path leads to. -/
theorem Parts.mem_unreachable_iff (h : Parts nodes edges entryId p) (hgraph : Intact nodes edges)
    (hstart : start ∈ nodeIds nodes) (hentry : p.entry = some (keyOf nodes start))
    (hid : id ∈ nodeIds nodes) : keyOf nodes id ∈ p.unreachable ↔ ¬ EdgePath edges start id := by
  rw [h.unreachable_eq, hentry, unreachableKeys, List.mem_filter, decide_eq_true_eq,
    mem_reachable_iff, h.path_keyOf_iff hgraph hstart hid]
  exact and_iff_right (List.mem_map_of_mem (h.mem_ids.2 hid))

end Plan

/-! ## What validation reports -/

namespace Validation

def unreachedCodes : List String := ["isolated_node", "unreachable_node"]

def isUnreached (id : String) (issue : Issue) : Bool :=
  issue.code ∈ unreachedCodes && issue.nodeId = some id

def unreachedIssue (edges : List Edge) (entry n : Node) : Issue :=
  if isTouched edges n.id then .unreachableNode n entry else .isolatedNode n entry

variable {entry n : Node}

/-- The finding about a node is about no other. -/
theorem isUnreached_unreachedIssue :
    isUnreached id (unreachedIssue edges entry n) = decide (n.id = id) := by
  rw [unreachedIssue]
  split <;> simp [isUnreached, unreachedCodes, Issue.code, Issue.nodeId]

/-- It calls a node isolated exactly if no edge touches it. -/
theorem code_unreachedIssue_iff : (unreachedIssue edges entry n).code = "isolated_node" ↔
    ∀ e ∈ edges, e.source ≠ n.id ∧ e.target ≠ n.id := by
  have htouched : isTouched edges n.id = true ↔
      ¬ ∀ e ∈ edges, e.source ≠ n.id ∧ e.target ≠ n.id := by
    simp [isTouched, or_iff_not_imp_left]
  rw [unreachedIssue]
  split
  · next h => simp [Issue.code, htouched.1 h]
  · next h =>
    rw [htouched, Classical.not_not] at h
    exact ⟨fun _ => h, fun _ => rfl⟩

/-- Findings of other kinds do not say that a node is out of reach. -/
theorem filter_isUnreached_eq_nil {issues : List Issue}
    (h : ∀ issue ∈ issues, issue.code ∉ unreachedCodes) : issues.filter (isUnreached id) = [] := by
  rw [List.filter_eq_nil_iff]
  intro issue hissue hunreached
  rw [isUnreached, Bool.and_eq_true, decide_eq_true_eq] at hunreached
  exact h issue hissue hunreached.1

/-- Only the check that starts at the entry reports nodes out of reach. -/
theorem filter_isUnreached_validate (id : String) :
    (validate nodes edges entryId).filter (isUnreached id) =
      (checkEntry nodes edges entryId).filter (isUnreached id) := by
  -- All other checks report findings of other kinds.
  have hempty : (checkEmpty nodes).filter (isUnreached id) = [] :=
    filter_isUnreached_eq_nil fun issue h => by simp [code_of_mem_checkEmpty h, unreachedCodes]
  have hduplicates : (checkDuplicates nodes).filter (isUnreached id) = [] :=
    filter_isUnreached_eq_nil fun issue h => by simp [code_of_mem_checkDuplicates h, unreachedCodes]
  have hends : (edges.flatMap (checkEnds nodes)).filter (isUnreached id) = [] := by
    refine filter_isUnreached_eq_nil fun issue h => ?_
    obtain ⟨e, -, h⟩ := List.mem_flatMap.1 h
    rcases code_of_mem_checkEnds h with ⟨hcode, -⟩ | ⟨hcode, -⟩ <;> simp [hcode, unreachedCodes]
  have hagents : (checkAgents nodes).filter (isUnreached id) = [] :=
    filter_isUnreached_eq_nil fun issue h => by simp [code_of_mem_checkAgents h, unreachedCodes]
  have hpresent : (checkKeysPresent nodes edges).filter (isUnreached id) = [] :=
    filter_isUnreached_eq_nil fun issue h => by
      simp [code_of_mem_checkKeysPresent h, unreachedCodes]
  have hdistinct : (checkKeysDistinct nodes edges).filter (isUnreached id) = [] :=
    filter_isUnreached_eq_nil fun issue h => by
      simp [code_of_mem_checkKeysDistinct h, unreachedCodes]
  simp only [validate, List.filter_append, hempty, hduplicates, hends, hagents, hpresent, hdistinct,
    List.nil_append, List.append_nil]

/-- About a node, validation reports that it is out of reach once, or not at all. -/
theorem filter_isUnreached_of_entry (hids : (nodeIds nodes).Nodup) (hn : n ∈ nodes)
    (hentry : Validation.entry nodes edges entryId = .ok entry) :
    (validate nodes edges entryId).filter (isUnreached n.id) =
      if n.id ∈ reachable (arrows edges) entry.id then [] else [unreachedIssue edges entry n] := by
  have hcheck : checkEntry nodes edges entryId = checkReachable nodes edges entry := by
    rw [checkEntry, hentry, if_neg (by simpa using List.ne_nil_of_mem hn)]
  have hissues : checkReachable nodes edges entry =
      (nodes.filter fun m => m.id ∉ reachable (arrows edges) entry.id).map
        (unreachedIssue edges entry) := rfl
  have habout : isUnreached n.id ∘ unreachedIssue edges entry = fun m => decide (m.id = n.id) :=
    funext fun m => isUnreached_unreachedIssue
  rw [filter_isUnreached_validate, hcheck, hissues, List.filter_map, habout, List.filter_comm,
    filter_eq_singleton hids hn]
  -- Of the nodes with the identifier there is just this one, and it is reached or not.
  by_cases hreached : n.id ∈ reachable (arrows edges) entry.id <;> simp [hreached]

end Validation

/-! ## The agreement -/

open Validation Plan

/-- **Planning and validation agree** on the entry, where there is one, and on what it reaches. A
node that no path leads to from the entry has its key among the unreachable ones, and one finding
says so, which calls it isolated exactly if it is an end of no edge. -/
theorem plan_and_validate_agree {p : Plan} (h : plan nodes edges entryId = .ok p)
    (hstart : StartsAt nodes edges entryId start) :
    p.entry = some (keyOf nodes start) ∧ p.entryIsFallback = false ∧
      ∀ n ∈ nodes,
        (keyOf nodes n.id ∈ p.unreachable ↔ ¬ EdgePath edges start n.id) ∧
        ((∃ issue ∈ validate nodes edges entryId, isUnreached n.id issue) ↔
          ¬ EdgePath edges start n.id) ∧
        (¬ EdgePath edges start n.id →
          ∃ issue, (validate nodes edges entryId).filter (isUnreached n.id) = [issue] ∧
            (issue.code = "isolated_node" ↔ ∀ e ∈ edges, e.source ≠ n.id ∧ e.target ≠ n.id)) := by
  have hgraph : Intact nodes edges := (plan_eq_ok_iff_assemble.1 h).1
  have hparts : Parts nodes edges entryId p := parts_of_plan h
  obtain ⟨hentry, hfallback⟩ : p.entry = some (keyOf nodes start) ∧ p.entryIsFallback = false := by
    have heq := hparts.entry_eq
    rw [entryKey_of_startsAt hgraph.nodup_ids hstart] at heq
    exact Prod.mk.inj heq
  obtain ⟨entry, hfound, rfl⟩ := (exists_entry_eq_ok_iff hgraph.nodup_ids).2 hstart
  have hmem : entry.id ∈ nodeIds nodes := mem_nodeIds_of_startsAt hstart
  refine ⟨hentry, hfallback, fun n hn => ?_⟩
  have hunreached := hparts.mem_unreachable_iff hgraph hmem hentry (id_mem_nodeIds hn)
  have hfilter := filter_isUnreached_of_entry hgraph.nodup_ids hn hfound
  have hreached :
      n.id ∈ reachable (Validation.arrows edges) entry.id ↔ EdgePath edges entry.id n.id :=
    mem_reachable_iff.trans path_arrows_iff
  -- Both searches find what paths lead to, so there are two cases for all three statements.
  by_cases hpath : EdgePath edges entry.id n.id
  · rw [if_pos (hreached.2 hpath), List.filter_eq_nil_iff] at hfilter
    refine ⟨hunreached, iff_of_false ?_ (fun hno => hno hpath), fun hno => absurd hpath hno⟩
    rintro ⟨issue, hissue, habout⟩
    exact hfilter issue hissue habout
  · rw [if_neg (mt hreached.1 hpath)] at hfilter
    have hreported : unreachedIssue edges entry n ∈
        (validate nodes edges entryId).filter (isUnreached n.id) := by
      rw [hfilter]
      exact List.mem_singleton_self _
    refine ⟨hunreached, iff_of_true ?_ hpath, fun _ => ⟨_, hfilter, code_unreachedIssue_iff⟩⟩
    exact ⟨_, List.mem_filter.1 hreported⟩

def apartNodes : List Node :=
  ["a", "b", "c", "d"].map fun id => { id := id, label := id, roles := [.agent] }

/-- A cycle of the first two nodes and an edge into it from the third. -/
def apartEdges : List Edge := [
  { source := "a", target := "b" }, { source := "b", target := "a" },
  { source := "c", target := "a" }]

theorem plan_and_validate_agree_apart :
    ∃ p, plan apartNodes apartEdges (some "a") = .ok p ∧ p.entry = some (keyOf apartNodes "a") ∧
      p.unreachable = ["c", "d"] ∧ ¬ EdgePath apartEdges "a" "c" := by
  have hplan : ∃ p, plan apartNodes apartEdges (some "a") = .ok p ∧ p.unreachable = ["c", "d"] :=
    ⟨_, rfl, by decide +kernel⟩
  obtain ⟨p, h, hunreached⟩ := hplan
  obtain ⟨hentry, -, hnodes⟩ := plan_and_validate_agree h (.chosen (by decide))
  have hc : keyOf apartNodes "c" ∈ p.unreachable := by
    rw [hunreached]
    decide +kernel
  exact ⟨p, h, hentry, hunreached, (hnodes apartNodes[2] (by simp [apartNodes])).1.1 hc⟩

end AgentFlow
