import AgentFlow.Editor.Session
import AgentFlow.Proofs.Editor.Invariant
import AgentFlow.Proofs.Validation.Findings

/-!
# Runs of the editor

Every change keeps the invariant of graphs under edit (`Operation.attempt_invariant`), so every run
from an empty graph has it (`Operation.run_invariant`), and so has every session, whatever it is
asked for (`Session.run_invariant`). A graph with the invariant is never found to have repeated
identifiers, loose ends, nodes that are no agents, or conditional edges without a key. Of what only
some steps keep, it is enough to know which do not (`Operation.forall_run_iff`).
-/

namespace AgentFlow

open Text

/-! ## Nodes that come in -/

/-- A node that is read or made on request: what may be asked to be added. -/
inductive Node.IsMade (n : Node) : Prop where
  | read (origin : Schema.Origin) (v : Json) (h : Schema.node origin v = .ok n)
  | created {role : Role} {index : Int} {id : String} (h : newNode role index id = .ok n)

/-- A node is read with distinct tools. -/
theorem Schema.nodup_tools_of_node_eq_ok {origin : Schema.Origin} {v : Json} {n : Node}
    (h : Schema.node origin v = .ok n) : n.tools.Nodup := by
  obtain ⟨fields, hread⟩ := exists_fields_of_record_eq_ok h
  -- The tools are the fourth of the seven fields that are read.
  obtain ⟨_, _, h6, -, rfl⟩ := Outcome.seq_eq_ok_iff.1 hread
  obtain ⟨_, _, h5, -, rfl⟩ := Outcome.seq_eq_ok_iff.1 h6
  obtain ⟨_, _, h4, -, rfl⟩ := Outcome.seq_eq_ok_iff.1 h5
  obtain ⟨_, _, h3, htools, rfl⟩ := Outcome.seq_eq_ok_iff.1 h4
  obtain ⟨tools, -, rfl⟩ := Outcome.map_eq_ok_iff.1 htools
  obtain ⟨_, _, h2, -, rfl⟩ := Outcome.seq_eq_ok_iff.1 h3
  obtain ⟨_, _, h1, -, rfl⟩ := Outcome.seq_eq_ok_iff.1 h2
  obtain ⟨_, -, rfl⟩ := Outcome.map_eq_ok_iff.1 h1
  exact nodup_firstSeen tools

/-- A node from the palette has no tools. -/
theorem tools_of_newNode_eq_ok {role : Role} {index : Int} {id : String} {n : Node}
    (h : newNode role index id = .ok n) : n.tools = [] := by
  obtain ⟨place, -, h⟩ := bind_eq_ok_iff.1 h
  rw [pure_eq_ok_iff.1 h]

/-- Faults turn into an error of the request, and nothing else does. -/
theorem Schema.Outcome.orError_eq_ok_iff {α : Type} {x : Outcome α} {a : α} :
    x.orError = .ok a ↔ x = .ok a := by
  cases x <;> simp [orError]

theorem Node.IsMade.nodup_tools {n : Node} (h : n.IsMade) : n.tools.Nodup := by
  cases h with
  | read _ _ h => exact Schema.nodup_tools_of_node_eq_ok h
  | created h =>
    rw [tools_of_newNode_eq_ok h]
    exact List.nodup_nil

/-! ## One change -/

variable {g g' : Graph}

namespace Operation

/-- Only the nodes that are added have to come from somewhere. -/
def IsAdmissible : Operation → Prop
  | .addNode n => n.IsMade
  | _ => True

open AgentFlow.Graph in
/-- **Every change keeps the invariant.** Each hands over a draft, if it succeeds. -/
theorem apply_invariant {op : Operation} (h : g.Invariant) (hop : op.IsAdmissible)
    (hok : op.apply g = .ok g') : g'.Invariant := by
  cases op with
  | addNode n =>
    obtain ⟨hid, rfl⟩ := addNode_eq_ok_iff.1 hok
    exact rebuild_invariant (h.draft_append hid hop.nodup_tools)
  | moveNode id x y =>
    obtain ⟨n, hn, rfl⟩ := modifyNode_eq_ok_iff.1 hok
    exact rebuild_invariant (h.draft_replaceNode (h.nodup_tools n (mem_of_node? hn).1))
  | updateNode id changes =>
    obtain ⟨n, hn, rfl⟩ := modifyNode_eq_ok_iff.1 hok
    refine rebuild_invariant (h.draft_replaceNode ?_)
    show ((changes.tools.map firstSeen).getD n.tools).Nodup
    cases changes.tools with
    | none => exact h.nodup_tools n (mem_of_node? hn).1
    | some tools => exact nodup_firstSeen tools
  | toggleTool id tool =>
    obtain ⟨n, -, rfl⟩ := modifyNode_eq_ok_iff.1 hok
    exact rebuild_invariant (h.draft_replaceNode (nodup_firstSeen _))
  | removeNode id =>
    obtain ⟨-, rfl⟩ := removeNode_eq_ok_iff.1 hok
    exact rebuild_invariant (h.draft_removeNode id)
  | connect source target id =>
    obtain ⟨hsource, htarget, rfl⟩ := connect_eq_ok_iff.1 hok
    -- Where there is such an edge already, not even canonical form is sought.
    split
    · exact h
    · refine rebuild_invariant (h.draft_edges fun e he => ?_)
      rcases List.mem_append.1 he with he | he
      · exact h.ends e he
      · rw [List.mem_singleton.1 he]
        exact ⟨hsource, htarget⟩
  | removeEdge id =>
    obtain ⟨-, rfl⟩ := removeEdge_eq_ok_iff.1 hok
    exact rebuild_invariant (h.draft_edges fun e he => h.ends e (List.mem_filter.1 he).1)
  | rerouteEdge id source target =>
    obtain ⟨e, he, hsource, htarget, rfl⟩ := rerouteEdge_eq_ok_iff.1 hok
    obtain ⟨hs, ht⟩ := h.ends e (mem_of_edge? he).1
    refine rebuild_invariant (h.draft_replaceEdge ⟨?_, ?_⟩ (by simp))
    · cases source with
      | none => exact hs
      | some s => exact hsource s rfl
    · cases target with
      | none => exact ht
      | some t => exact htarget t rfl
  | setEdgeKind id kind =>
    obtain ⟨e, he, rfl⟩ := setEdgeKind_eq_ok_iff.1 hok
    obtain ⟨hmem, hid⟩ := mem_of_edge? he
    exact rebuild_invariant
      (h.draft_replaceEdge (h.ends e hmem) fun _ hpin => id_eq_of_mem_pin hid hpin)
  | setRouteKey id key =>
    obtain ⟨e, he, rfl⟩ := setRouteKey_eq_ok_iff.1 hok
    obtain ⟨hmem, hid⟩ := mem_of_edge? he
    exact rebuild_invariant
      (h.draft_replaceEdge (h.ends e hmem) fun _ hpin => id_eq_of_mem_pin hid hpin)

/-- A change that is tried keeps the invariant, whether it succeeds or fails. -/
theorem attempt_invariant {op : Operation} (h : g.Invariant) (hop : op.IsAdmissible) :
    (op.attempt g).Invariant := by
  rw [attempt]
  split
  · next hok => exact apply_invariant h hop hok
  · exact h

/-! ## Runs -/

/-- The graph after some changes have been tried, one after the other. -/
def run (ops : List Operation) (g : Graph) : Graph := ops.foldl (fun g op => op.attempt g) g

/-- The last change is tried on what the others have left. -/
theorem run_concat (ops : List Operation) (op : Operation) (g : Graph) :
    run (ops ++ [op]) g = op.attempt (run ops g) := by
  rw [run, List.foldl_append]
  rfl

section Avoiding

variable {P E : Graph → Prop} {X : Graph → Operation → Prop} {ops : List Operation}

/-- What each step keeps unless it breaks a rule holds after a run in which no step does. -/
theorem run_of_avoids (hstep : ∀ g op, P g → ¬ X g op → P (op.attempt g)) (h : P g)
    (hops : ∀ before op, before ++ [op] <+: ops → ¬ X (run before g) op) : P (run ops g) := by
  induction ops using List.reverseRecOn with
  | nil => exact h
  | append_singleton before op ih =>
    rw [run_concat]
    refine hstep _ op (ih fun earlier op hinitial => hops earlier op ?_) ?_
    · exact hinitial.trans (List.prefix_append _ _)
    · exact hops before op (List.prefix_refl _)

/-- Let steps that break no rule keep an invariant, and let something that follows from the
invariant be kept by these steps only. Then it holds all along a run exactly if no step of the run
breaks the rule. -/
theorem forall_run_iff (hholds : ∀ g, P g → E g)
    (hbreaks : ∀ g op, P g → (E (op.attempt g) ↔ ¬ X g op))
    (hstep : ∀ g op, P g → ¬ X g op → P (op.attempt g)) (h : P g) :
    (∀ before, before <+: ops → E (run before g)) ↔
      ∀ before op, before ++ [op] <+: ops → ¬ X (run before g) op := by
  constructor
  · intro hall
    -- The steps are checked one after the other: those before a step have broken no rule.
    induction ops using List.reverseRecOn with
    | nil =>
      intro before op hinitial
      simp at hinitial
    | append_singleton ops last ih =>
      have hops := ih fun before hbefore => hall before (hbefore.trans (List.prefix_append _ _))
      have hlast := hall (ops ++ [last]) (List.prefix_refl _)
      rw [run_concat, hbreaks _ _ (run_of_avoids hstep h hops)] at hlast
      intro before op hinitial
      -- The step is the last one, or one of those before it.
      rcases List.prefix_concat_iff.1 hinitial with heq | hinitial
      · obtain ⟨rfl, rfl⟩ := List.append_singleton_inj.1 heq
        exact hlast
      · exact hops before op hinitial
  · intro hops before hbefore
    exact hholds _ <| run_of_avoids hstep h fun earlier op hinitial =>
      hops earlier op (hinitial.trans hbefore)

end Avoiding

/-- Every run keeps the invariant. -/
theorem run_invariant {ops : List Operation} (h : g.Invariant)
    (hops : ∀ op ∈ ops, op.IsAdmissible) : (run ops g).Invariant := by
  induction ops generalizing g with
  | nil => exact h
  | cons op rest ih =>
    obtain ⟨hop, hrest⟩ := List.forall_mem_cons.1 hops
    exact ih (attempt_invariant h hop) hrest

end Operation

/-- The empty graph has it. -/
theorem Graph.invariant_empty (name : String) : ({ name := name } : Graph).Invariant := by
  have hintact : Intact [] [] := by constructor <;> simp [nodeIds]
  constructor <;> simp [loneConditional, hintact]

/-! ## What validation never finds -/

def ruledOutCodes : List String := "missing_route_key" :: corruptionCodes

/-- Validation finds nothing of the kinds that the invariant rules out. -/
theorem Graph.Invariant.code_notMem (h : g.Invariant) {entryId : Option String} {issue : Issue}
    (hissue : issue ∈ validate g.nodes g.edges entryId) : issue.code ∉ ruledOutCodes := by
  intro hcode
  -- Either a key is missing, or the finding tells of structural corruption.
  rcases List.mem_cons.1 hcode with hcode | hcode
  · obtain ⟨e, he, hconditional, hblank⟩ := exists_missingRouteKey_iff.1 ⟨issue, hissue, hcode⟩
    obtain ⟨key, hkey, hne⟩ := h.key e he (by simpa [Edge.isConditional] using hconditional)
    rw [Routing.explicitKey, hkey] at hblank
    exact hne hblank
  · exact isCorrupt_iff.1 ⟨issue, hissue, hcode⟩ h.toIntact

namespace Operation

/-- Every graph that is made from an empty one by trying changes has the invariant, and validation,
with whatever entry, finds nothing of the kinds that it rules out. -/
theorem run_empty_sound (name : String) (ops : List Operation)
    (hops : ∀ op ∈ ops, op.IsAdmissible) :
    (run ops { name := name }).Invariant ∧
      ∀ entryId, ∀ issue ∈ validate (run ops { name := name }).nodes
        (run ops { name := name }).edges entryId, issue.code ∉ ruledOutCodes := by
  have h := run_invariant (Graph.invariant_empty name) hops
  exact ⟨h, fun entryId issue hissue => h.code_notMem hissue⟩

/-- Two nodes that are read, the single edge between them marked conditional, and a change that
fails. -/
theorem run_empty_sound_lone : ∃ ops : List Operation, (∀ op ∈ ops, op.IsAdmissible) ∧
    (loneConditional (run ops { name := "Agent Flow" }).edges).length = 1 ∧
    (run ops { name := "Agent Flow" }).Invariant ∧
    ∀ entryId, ∀ issue ∈ validate (run ops { name := "Agent Flow" }).nodes
      (run ops { name := "Agent Flow" }).edges entryId, issue.code ∉ ruledOutCodes := by
  have ha : Node.IsMade { id := "a", tools := ["x"] } :=
    .read .program (.obj [("id", .str "a"), ("tools", .arr [.str "x", .str "x"])]) rfl
  have hb : Node.IsMade { id := "b" } := .read .program (.obj [("id", .str "b")]) rfl
  refine ⟨[.addNode { id := "a", tools := ["x"] }, .addNode { id := "b" }, .connect "a" "b" "e",
    .setEdgeKind "e" .conditional, .removeNode "c"], ?_, by decide +kernel, ?_⟩
  · simp [IsAdmissible, ha, hb]
  · exact run_empty_sound "Agent Flow" _ (by simp [IsAdmissible, ha, hb])

end Operation

/-! ## Sessions -/

namespace Session

/-- A session tries the change on its graph. -/
theorem graph_perform (s : Session) (op : Operation) :
    (s.perform op).2.graph = op.attempt s.graph := by
  rw [perform, Operation.attempt]
  cases op.apply s.graph <;> rfl

/-- A request leaves the graph alone, or is a change that is tried. -/
inductive Effect (g g' : Graph) : Prop where
  | unchanged (h : g' = g)
  | changed (op : Operation) (hop : op.IsAdmissible) (h : g' = op.attempt g)

theorem effect_perform (s : Session) (op : Operation) (hop : op.IsAdmissible) :
    Effect s.graph (s.perform op).2.graph :=
  .changed op hop (graph_perform s op)

/-- Making a node fails, or tries to add one from the palette. -/
theorem effect_createNode (s : Session) (role : Json) (index : Int) (id : Option String) :
    Effect s.graph (s.createNode role index id).2.graph := by
  rw [createNode]
  split
  · exact .unchanged rfl
  · dsimp only
    split
    · exact .unchanged rfl
    · next n hnew =>
      exact effect_perform { s with supply := (s.supply.nodeId id).2 } (.addNode n) (.created hnew)

/-- Adding a node fails, or tries to add one that was read. -/
theorem effect_addNode (s : Session) (v : Json) :
    Effect s.graph (s.handle (.addNode v)).2.graph := by
  rw [handle]
  split
  · next n hread =>
    have hmade : n.IsMade := .read .program v (Schema.Outcome.orError_eq_ok_iff.1 hread)
    exact effect_perform s (.addNode n) hmade
  · exact .unchanged rfl

theorem effect_updateNode (s : Session) (id : String) (label description : Option String)
    (tools : Option (List String)) (roles : Option Json) :
    Effect s.graph (s.updateNode id label description tools roles).2.graph := by
  rw [updateNode]
  split
  · exact .unchanged rfl
  · exact .unchanged rfl
  · exact effect_perform s (.updateNode id _) trivial

theorem effect_connect (s : Session) (source target : String) (id : Option String) :
    Effect s.graph (s.connect source target id).2.graph := by
  rw [connect]
  dsimp only
  split
  · exact effect_perform { s with supply := (s.supply.edgeId id).2 } (.connect source target _)
      trivial
  · exact effect_perform s (.connect source target _) trivial

theorem effect_setEdgeKind (s : Session) (id : String) (kind : Json) :
    Effect s.graph (s.setEdgeKind id kind).2.graph := by
  rw [setEdgeKind]
  split
  · exact .unchanged rfl
  · exact .unchanged rfl
  · exact effect_perform s (.setEdgeKind id _) trivial

/-- Every request leaves the graph alone or is a change that is tried. -/
theorem effect_handle (s : Session) (request : Request) :
    Effect s.graph (s.handle request).2.graph := by
  cases request with
  | createNode role index id => exact effect_createNode s role index id
  | addNode v => exact effect_addNode s v
  | moveNode id x y => exact effect_perform s (.moveNode id x y) trivial
  | updateNode id label description tools roles =>
    exact effect_updateNode s id label description tools roles
  | toggleTool id tool => exact effect_perform s (.toggleTool id tool) trivial
  | removeNode id => exact effect_perform s (.removeNode id) trivial
  | connect source target id => exact effect_connect s source target id
  | removeEdge id => exact effect_perform s (.removeEdge id) trivial
  | rerouteEdge id source target => exact effect_perform s (.rerouteEdge id source target) trivial
  | setEdgeKind id kind => exact effect_setEdgeKind s id kind
  | setRouteKey id key => exact effect_perform s (.setRouteKey id key) trivial

/-- So every request keeps the invariant. -/
theorem handle_invariant {s : Session} (h : s.graph.Invariant) (request : Request) :
    (s.handle request).2.graph.Invariant := by
  cases effect_handle s request with
  | unchanged heq =>
    rw [heq]
    exact h
  | changed op hop heq =>
    rw [heq]
    exact Operation.attempt_invariant h hop

/-- The session after some requests, one after the other. -/
def run (s : Session) (requests : List Request) : Session :=
  requests.foldl (fun s request => (s.handle request).2) s

theorem run_invariant {s : Session} (h : s.graph.Invariant) (requests : List Request) :
    (s.run requests).graph.Invariant := by
  induction requests generalizing s with
  | nil => exact h
  | cons request rest ih => exact ih (handle_invariant h request)

end Session

end AgentFlow
