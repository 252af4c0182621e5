import AgentFlow.Proofs.Plan.Assembly
import AgentFlow.Proofs.Renaming.Canonical

/-!
# Other identifiers, the same plan

Planning puts keys in the place of identifiers at once, and the key of a node comes from its label
and its place. So under other identifiers the same graphs have a plan, and the plan is the same but
for the identifiers that its nodes still carry (`plan_rename`).
-/

namespace AgentFlow

/-- The planned node under another identifier; its key stays. -/
def PlannedNode.rename (f : String → String) (q : PlannedNode) : PlannedNode :=
  { q with node := q.node.rename f }

/-- The plan with its nodes under other identifiers. -/
def Plan.rename (f : String → String) (p : Plan) : Plan :=
  { p with nodes := p.nodes.map (PlannedNode.rename f) }

namespace Plan

variable {f : String → String} {nodes : List Node} {edges : List Edge} {entryId : Option String}

/-! ## Keys -/

/-- Keys are made from labels, so they stay. -/
theorem assignKeys_rename (f : String → String) (nodes : List Node) :
    assignKeys (nodes.map (Node.rename f)) = assignKeys nodes := by
  rw [assignKeys, List.map_map]
  rfl

theorem withKeys_rename (f : String → String) (nodes : List Node) :
    withKeys (nodes.map (Node.rename f)) = (withKeys nodes).map (PlannedNode.rename f) := by
  rw [withKeys, assignKeys_rename, List.zipWith_map_right, withKeys, List.map_zipWith]
  rfl

/-- Only the identifiers in the key table change. -/
theorem keyTable_rename (f : String → String) (nodes : List Node) :
    keyTable (nodes.map (Node.rename f)) = (keyTable nodes).map (Prod.map f id) := by
  rw [keyTable, assignKeys_rename, nodeIds_rename, List.zip_map_left]
  rfl

/-- Look-up by a new identifier finds what look-up by the old one did. -/
theorem lookup_rename (hf : Function.Injective f) (table : List (String × String)) (id' : String) :
    (table.map (Prod.map f id)).lookup (f id') = table.lookup id' := by
  induction table with
  | nil => rfl
  | cons entry rest ih =>
    have hbeq : (f id' == f entry.1) = (id' == entry.1) := by
      rw [Bool.eq_iff_iff, beq_iff_eq, beq_iff_eq, hf.eq_iff]
    rw [List.map_cons, List.lookup_cons, List.lookup_cons, ← ih, ← hbeq]
    rfl

theorem keyOf_rename (hf : Function.Injective f) (id : String) :
    keyOf (nodes.map (Node.rename f)) (f id) = keyOf nodes id := by
  rw [keyOf, keyTable_rename, lookup_rename hf, keyOf]

/-- An edge has the same wire, since the keys of its ends are the same. -/
theorem wireOf_rename (hf : Function.Injective f) (e : Edge) :
    wireOf (nodes.map (Node.rename f)) (e.rename f) = wireOf nodes e := by
  have hsource : keyOf (nodes.map (Node.rename f)) (e.rename f).source = keyOf nodes e.source :=
    keyOf_rename hf e.source
  have htarget : keyOf (nodes.map (Node.rename f)) (e.rename f).target = keyOf nodes e.target :=
    keyOf_rename hf e.target
  rw [wireOf, hsource, htarget]
  rfl

/-! ## Which graphs have a plan -/

/-- A graph is intact under other identifiers exactly if it was before. -/
theorem intact_rename_iff (hf : Function.Injective f) :
    Intact (nodes.map (Node.rename f)) (edges.map (Edge.rename f)) ↔ Intact nodes edges := by
  have hids : (nodeIds (nodes.map (Node.rename f))).Nodup ↔ (nodeIds nodes).Nodup := by
    rw [nodeIds_rename, List.nodup_map_iff hf]
  have hends : (∀ e ∈ edges.map (Edge.rename f),
      e.source ∈ nodeIds (nodes.map (Node.rename f)) ∧
        e.target ∈ nodeIds (nodes.map (Node.rename f))) ↔
      ∀ e ∈ edges, e.source ∈ nodeIds nodes ∧ e.target ∈ nodeIds nodes := by
    rw [List.forall_mem_map]
    exact forall₂_congr fun e _ => and_congr (mem_nodeIds_rename hf) (mem_nodeIds_rename hf)
  have hagents : (∀ n ∈ nodes.map (Node.rename f), Role.agent ∈ n.roles) ↔
      ∀ n ∈ nodes, Role.agent ∈ n.roles := List.forall_mem_map
  -- Each of the three conditions is the same before and after.
  constructor
  · intro h
    exact ⟨hids.1 h.nodup_ids, hends.1 h.ends, hagents.1 h.agents⟩
  · intro h
    exact ⟨hids.2 h.nodup_ids, hends.2 h.ends, hagents.2 h.agents⟩

/-! ## Order and entry -/

/-- A search by a test that the renaming leaves alone finds the same node. -/
theorem find?_rename {P : PlannedNode → Bool} {Q : PlannedNode → Bool}
    (h : ∀ q, P (q.rename f) = Q q) (given : List PlannedNode) :
    (given.map (PlannedNode.rename f)).find? P = (given.find? Q).map (PlannedNode.rename f) := by
  have hcomp : P ∘ PlannedNode.rename f = Q := funext h
  rw [List.find?_map, hcomp]

/-- Which nodes no edge leads to stays as well. -/
theorem noneInto_rename (hf : Function.Injective f) (edges : List Edge) (id : String) :
    (edges.map (Edge.rename f)).all (·.target ≠ f id) = edges.all (·.target ≠ id) := by
  have hcomp : (fun e : Edge => decide (e.target ≠ f id)) ∘ Edge.rename f =
      fun e : Edge => decide (e.target ≠ id) := by
    funext e
    simp [Edge.rename, hf.eq_iff]
  rw [List.all_map, hcomp]

/-- Nodes are emitted in the same order. -/
theorem emissionOrder_rename (hf : Function.Injective f) (edges : List Edge)
    (waiting : List PlannedNode) :
    emissionOrder (fun q => q.node.id) (edges.map (Edge.rename f))
        (waiting.map (PlannedNode.rename f)) =
      (emissionOrder (fun q => q.node.id) edges waiting).map (PlannedNode.rename f) := by
  have hready : ∀ (edges : List Edge) (waiting : List PlannedNode),
      (waiting.map (PlannedNode.rename f)).find?
          (fun q => isReady (edges.map (Edge.rename f)) q.node.id) =
        (waiting.find? fun q => isReady edges q.node.id).map (PlannedNode.rename f) :=
    fun edges waiting => find?_rename (fun q => noneInto_rename hf edges q.node.id) waiting
  induction edges, waiting using emission_induction (fun q : PlannedNode => q.node.id) with
  | stuck edges waiting hfind =>
    rw [emissionOrder_of_find?_eq_none hfind, emissionOrder_of_find?_eq_none]
    rw [hready, hfind, Option.map_none]
  | emit edges waiting q hfind ih =>
    -- What is left after a step is, on both sides, the same edges and the same nodes.
    have hedges : (edges.map (Edge.rename f)).filter (·.source ≠ (q.rename f).node.id) =
        (edges.filter (·.source ≠ q.node.id)).map (Edge.rename f) := by
      rw [List.filter_map]
      refine congrArg _ (List.filter_congr fun e _ => ?_)
      simp [Edge.rename, PlannedNode.rename, Node.rename, hf.eq_iff]
    have hwaiting : without (fun q => q.node.id) (q.rename f).node.id
        (waiting.map (PlannedNode.rename f)) =
          (without (fun q => q.node.id) q.node.id waiting).map (PlannedNode.rename f) := by
      rw [without, List.filter_map, without]
      refine congrArg _ (List.filter_congr fun other _ => ?_)
      simp [PlannedNode.rename, Node.rename, hf.eq_iff]
    rw [emissionOrder_of_find?_eq_some hfind, emissionOrder_of_find?_eq_some (a := q.rename f)]
    · rw [hedges, hwaiting, ih, List.map_cons]
    · rw [hready, hfind, Option.map_some]

/-- The planned nodes are the same but for their identifiers. -/
theorem plannedNodes_rename (hf : Function.Injective f) :
    plannedNodes (nodes.map (Node.rename f)) (edges.map (Edge.rename f)) =
      (plannedNodes nodes edges).map (PlannedNode.rename f) := by
  rw [plannedNodes, withKeys_rename, emissionOrder_rename hf, plannedNodes]

/-- The entry has the same key, whether it is chosen or found. -/
theorem entryKey_rename (hf : Function.Injective f) (given : List PlannedNode) (edges : List Edge)
    (entryId : Option String) :
    entryKey (given.map (PlannedNode.rename f)) (edges.map (Edge.rename f)) (entryId.map f) =
      entryKey given edges entryId := by
  have hasked : ∀ q : PlannedNode,
      decide (some (q.rename f).node.id = entryId.map f) = decide (some q.node.id = entryId) := by
    intro q
    cases entryId <;> simp [PlannedNode.rename, Node.rename, hf.eq_iff]
  have hfree : ∀ q : PlannedNode,
      (edges.map (Edge.rename f)).all (·.target ≠ (q.rename f).node.id) =
        edges.all (·.target ≠ q.node.id) := fun q => noneInto_rename hf edges q.node.id
  -- The chosen node is looked for first, and then the first that no edge leads to.
  unfold entryKey
  rw [find?_rename hasked, find?_rename hfree]
  cases given.find? fun q => some q.node.id = entryId with
  | some q => rfl
  | none =>
    cases given.find? fun q => edges.all (·.target ≠ q.node.id) with
    | some q => rfl
    | none => cases given <;> rfl

/-! ## The plan -/

theorem map_key_rename (f : String → String) (planned : List PlannedNode) :
    (planned.map (PlannedNode.rename f)).map PlannedNode.key = planned.map PlannedNode.key := by
  rw [List.map_map]
  rfl

/-- The parts are put together in the same way. -/
theorem assemble_rename (hf : Function.Injective f) (given planned : List PlannedNode)
    (edges : List Edge) (wires : List Wire) (entryId : Option String) :
    assemble (given.map (PlannedNode.rename f)) (planned.map (PlannedNode.rename f))
        (edges.map (Edge.rename f)) wires (entryId.map f) =
      (assemble given planned edges wires entryId).rename f := by
  simp only [assemble, entryKey_rename hf, map_key_rename]
  rfl

/-- A graph has its plan under other identifiers too. -/
theorem plan_rename (hf : Function.Injective f) {p : Plan} (h : plan nodes edges entryId = .ok p) :
    plan (nodes.map (Node.rename f)) (edges.map (Edge.rename f)) (entryId.map f) =
      .ok (p.rename f) := by
  obtain ⟨hintact, rfl⟩ := plan_eq_ok_iff_assemble.1 h
  refine plan_eq_ok_iff_assemble.2 ⟨(intact_rename_iff hf).2 hintact, ?_⟩
  have hwires : (edges.map (Edge.rename f)).map (wireOf (nodes.map (Node.rename f))) =
      edges.map (wireOf nodes) := by
    rw [List.map_map]
    exact List.map_congr_left fun e _ => wireOf_rename hf e
  rw [withKeys_rename, plannedNodes_rename hf, hwires, assemble_rename hf]

/-- A graph has a plan under other identifiers exactly if it had one before. -/
theorem exists_plan_rename_iff (hf : Function.Injective f) :
    (∃ p, plan (nodes.map (Node.rename f)) (edges.map (Edge.rename f)) (entryId.map f) = .ok p) ↔
      ∃ p, plan nodes edges entryId = .ok p := by
  rw [exists_plan_iff, exists_plan_iff, intact_rename_iff hf]

end Plan

end AgentFlow
