import AgentFlow.Proofs.Plan.RouteKeys
import AgentFlow.Proofs.Validation.Findings

/-!
# Duplicate keys in validation and in plans

Validation counts the route keys of a source; planning hands them out from left to right, where a
key may also be taken by a numbered one. Both notice the same nodes: the first key that is taken has
been handed out as it is, so it occurs twice (`plan_and_validate_agree_on_keys`).
-/

namespace AgentFlow.Plan

open Text

variable {nodes : List Node} {edges : List Edge} {entryId : Option String} {id : String} {p : Plan}

/-! ## What validation compares -/

/-- Where all conditional edges have keys, validation compares just these. -/
theorem keysFrom_eq_explicitKeys (hkeyed : IsKeyed edges) (id : String) :
    Validation.keysFrom edges id = explicitKeys edges id := by
  rw [Validation.keysFrom, explicitKeys, conditionalFrom, edgesFrom, List.filter_filter]
  refine congrArg _ (List.filter_congr fun e he => ?_)
  cases hconditional : e.isConditional with
  | true => simp [hkeyed e he hconditional]
  | false => rfl

/-- Validation reports a node if two of its conditional edges have the same key. -/
theorem reportsDuplicateKey_iff_explicitKeys (hkeyed : IsKeyed edges) :
    ReportsDuplicateKey nodes edges entryId id ↔ ¬ (explicitKeys edges id).Nodup := by
  rw [reportsDuplicateKey_iff, keysFrom_eq_explicitKeys hkeyed]

/-! ## What planning hands out -/

/-- A branch renames no key exactly if the keys of its edges are distinct. -/
theorem renamed_branchFrom_eq_nil_iff (hkeyed : IsKeyed edges) :
    (branchFrom nodes id (conditionalFrom edges id)).renamed = [] ↔
      (explicitKeys edges id).Nodup := by
  rw [renamed_branchFrom, map_wantedKey_conditionalFrom hkeyed, clashes_eq_nil_iff]

/-- Distinct keys are handed out as they are. -/
theorem map_key_branchFrom_of_nodup (hkeyed : IsKeyed edges)
    (hkeys : (explicitKeys edges id).Nodup) :
    (branchFrom nodes id (conditionalFrom edges id)).routes.map Route.key =
      explicitKeys edges id := by
  rw [map_key_branchFrom, map_wantedKey_conditionalFrom hkeyed,
    freshAll_of_nodup hkeys fun _ _ => List.not_mem_nil]

/-! ## Agreement -/

/-- Validation and a plan agree on the route keys of a planned node. The node has a branch exactly
if it has conditional edges; that branch has renamed keys exactly if validation reports a key of the
node as a duplicate, and otherwise its keys are those of the edges, in order. -/
structure AgreesOnKeys (nodes : List Node) (edges : List Edge) (entryId : Option String) (p : Plan)
    (q : PlannedNode) : Prop where
  branch_iff : (∃ b ∈ p.branches, b.source = q.key) ↔ explicitKeys edges q.node.id ≠ []
  renamed_iff : (∃ b ∈ p.branches, b.source = q.key ∧ b.renamed ≠ []) ↔
    ReportsDuplicateKey nodes edges entryId q.node.id
  keys_eq : ¬ ReportsDuplicateKey nodes edges entryId q.node.id →
    ∀ b ∈ p.branches, b.source = q.key → b.routes.map Route.key = explicitKeys edges q.node.id

/-- Every planned node agrees, for what a plan has at its key is the branch of its own edges. -/
theorem Parts.agreesOnKeys (h : Parts nodes edges entryId p) (hkeyed : IsKeyed edges)
    (entryId' : Option String) {q : PlannedNode} (hq : q ∈ p.nodes) :
    AgreesOnKeys nodes edges entryId' p q := by
  have hid : q.node.id ∈ nodeIds nodes := h.mem_ids.1 (List.mem_map_of_mem hq)
  have hbranch : ∀ b, b ∈ p.branches ∧ b.source = q.key ↔ explicitKeys edges q.node.id ≠ [] ∧
      b = branchFrom nodes q.node.id (conditionalFrom edges q.node.id) := fun b => by
    rw [h.keys_eq q hq, h.mem_branches_at hid, explicitKeys, ne_eq, ne_eq, List.map_eq_nil_iff]
  constructor
  case branch_iff =>
    simp only [hbranch, exists_and_left, exists_eq, and_true]
  case renamed_iff =>
    -- A node without conditional edges has distinct keys, so it renames none either.
    simp only [← and_assoc, hbranch]
    rw [reportsDuplicateKey_iff_explicitKeys hkeyed, ← renamed_branchFrom_eq_nil_iff hkeyed]
    constructor
    · rintro ⟨b, ⟨-, rfl⟩, hrenamed⟩
      exact hrenamed
    · intro hrenamed
      refine ⟨_, ⟨fun hnil => hrenamed ?_, rfl⟩, hrenamed⟩
      rw [renamed_branchFrom_eq_nil_iff hkeyed, hnil]
      exact List.nodup_nil
  case keys_eq =>
    intro hreport b hb hsource
    rw [reportsDuplicateKey_iff_explicitKeys hkeyed, Decidable.not_not] at hreport
    obtain ⟨-, rfl⟩ := (hbranch b).1 ⟨hb, hsource⟩
    exact map_key_branchFrom_of_nodup hkeyed hreport

/-- **Validation and planning agree** on which nodes have duplicate route keys: where all
conditional edges have keys, every node is planned, and its branch has renamed keys exactly if
validation reports a duplicate. -/
theorem plan_and_validate_agree_on_keys (h : plan nodes edges entryId = .ok p)
    (hkeyed : IsKeyed edges) (entryId' : Option String) {n : Node} (hn : n ∈ nodes) :
    ∃ q ∈ p.nodes, q.node = n ∧ AgreesOnKeys nodes edges entryId' p q := by
  obtain ⟨q, hq, hnode⟩ :=
    List.mem_map.1 ((resolved_of_plan_eq_ok h).nodes_perm.mem_iff.2 hn)
  exact ⟨q, hq, hnode, (parts_of_plan h).agreesOnKeys hkeyed entryId' hq⟩

/-- The keys of `A` are the same once they are trimmed, and those of `B` differ. -/
def paddedEdges : List Edge := [
  { source := "A", target := "B", kind := .conditional, routeKey := some "x" },
  { source := "A", target := "C", kind := .conditional, routeKey := some " x " },
  { source := "B", target := "C", kind := .conditional, routeKey := some "left" },
  { source := "B", target := "D", kind := .conditional, routeKey := some "right " }]

/-- Validation reports the key of `A`, so its branch has one renamed; the keys of `B` are kept. -/
theorem plan_and_validate_agree_on_keys_padded :
    ∃ p, plan suffixNodes paddedEdges none = .ok p ∧ IsKeyed paddedEdges ∧
      (∃ q ∈ p.nodes, q.node.id = "A" ∧ ∃ b ∈ p.branches, b.source = q.key ∧ b.renamed ≠ []) ∧
      ∃ q ∈ p.nodes, q.node.id = "B" ∧ ∀ b ∈ p.branches, b.source = q.key →
        b.routes.map Route.key = ["left", "right"] := by
  have hkeyed : IsKeyed paddedEdges := by
    unfold IsKeyed
    decide +kernel
  have hplan : ∃ p, plan suffixNodes paddedEdges none = .ok p := ⟨_, rfl⟩
  obtain ⟨p, h⟩ := hplan
  refine ⟨p, h, hkeyed, ?_, ?_⟩
  · obtain ⟨q, hq, hnode, hagrees⟩ :=
      plan_and_validate_agree_on_keys (n := suffixNodes[0]) h hkeyed none (List.getElem_mem _)
    have hid : q.node.id = "A" := congrArg Node.id hnode
    refine ⟨q, hq, hid, hagrees.renamed_iff.2 ((reportsDuplicateKey_iff_explicitKeys hkeyed).2 ?_)⟩
    rw [hid]
    decide +kernel
  · obtain ⟨q, hq, hnode, hagrees⟩ :=
      plan_and_validate_agree_on_keys (n := suffixNodes[1]) h hkeyed none (List.getElem_mem _)
    have hid : q.node.id = "B" := congrArg Node.id hnode
    have hkeys : explicitKeys paddedEdges q.node.id = ["left", "right"] := by
      rw [hid]
      decide +kernel
    rw [← hkeys]
    refine ⟨q, hq, hid, hagrees.keys_eq fun hreport => ?_⟩
    rw [reportsDuplicateKey_iff_explicitKeys hkeyed, hkeys] at hreport
    exact hreport (by decide)

end AgentFlow.Plan
