import AgentFlow.Canonical
import AgentFlow.Proofs.Graph.Basic

/-!
# Other identifiers, the same canonical form

An identifier says nothing but which node it stands for. Give the nodes of a graph other
identifiers, different ones to different nodes, and the graph comes into canonical form as it did
before (`canonicalize_rename`): degrees, labels that are looked up and route keys stay what they
were.
-/

namespace AgentFlow

open Routing Text

/-- The node under another identifier. -/
def Node.rename (f : String → String) (n : Node) : Node := { n with id := f n.id }

/-- The edge between the same nodes under other identifiers. -/
def Edge.rename (f : String → String) (e : Edge) : Edge :=
  { e with source := f e.source, target := f e.target }

variable {f : String → String} {nodes : List Node} {edges : List Edge}

/-! ## Look-ups -/

theorem nodeIds_rename (f : String → String) (nodes : List Node) :
    nodeIds (nodes.map (Node.rename f)) = (nodeIds nodes).map f := by
  rw [nodeIds, nodeIds, List.map_map, List.map_map]
  rfl

theorem mem_nodeIds_rename (hf : Function.Injective f) {id : String} :
    f id ∈ nodeIds (nodes.map (Node.rename f)) ↔ id ∈ nodeIds nodes := by
  rw [nodeIds_rename, List.mem_map_of_injective hf]

/-- A renaming that is injective keeps out-degrees. -/
theorem outDegree_rename (hf : Function.Injective f) (id : String) :
    outDegree (edges.map (Edge.rename f)) (f id) = outDegree edges id := by
  rw [outDegree, List.countP_map]
  exact List.countP_congr fun e _ => by simp [Edge.rename, hf.eq_iff]

/-- The same node is found under the other identifier. -/
theorem lastNode?_rename (hf : Function.Injective f) (id : String) :
    lastNode? (nodes.map (Node.rename f)) (f id) = (lastNode? nodes id).map (Node.rename f) := by
  -- The test on renamed nodes is the test on those before.
  have hid : ((fun n : Node => decide (n.id = f id)) ∘ Node.rename f) =
      fun n : Node => decide (n.id = id) := by
    funext n
    simp [Node.rename, hf.eq_iff]
  rw [lastNode?, ← List.map_reverse, List.find?_map, hid, lastNode?]

/-! ## Routing -/

namespace Routing

variable {pinned : List String}

/-- Whether an edge is to be conditional does not depend on identifiers. -/
theorem isBranching_rename (hf : Function.Injective f) (e : Edge) :
    isBranching (nodes.map (Node.rename f)) (edges.map (Edge.rename f)) pinned (e.rename f) =
      isBranching nodes edges pinned e := by
  have hsource : (e.rename f).source = f e.source := rfl
  have htarget : (e.rename f).target = f e.target := rfl
  simp only [isBranching, hsource, htarget, outDegree_rename hf, mem_nodeIds_rename hf]
  rfl

/-- The keys that are taken at a source stay with it. -/
theorem keysAt_rename (hf : Function.Injective f) (taken : List (String × String))
    (source : String) : keysAt (taken.map (Prod.map f id)) (f source) = keysAt taken source := by
  have hsource : ((fun entry : String × String => decide (entry.1 = f source)) ∘ Prod.map f id) =
      fun entry : String × String => decide (entry.1 = source) := by
    funext entry
    simp [hf.eq_iff]
  rw [keysAt, List.filter_map, hsource, List.map_map]
  rfl

section Route

variable {branching branching' : Edge → Bool} {label? label?' : String → Option String}

/-- The explicit keys are set aside for the same sources. -/
theorem reservedKeys_rename (hbranching : ∀ e, branching' (e.rename f) = branching e) :
    reservedKeys branching' (edges.map (Edge.rename f)) =
      (reservedKeys branching edges).map (Prod.map f id) := by
  rw [reservedKeys, List.filter_map, List.map_map, reservedKeys, List.map_map]
  refine congrArg _ (List.filter_congr fun e _ => ?_)
  rw [Function.comp_apply, hbranching]
  rfl

/-- Routing gives out the same keys. -/
theorem route_rename (hf : Function.Injective f)
    (hbranching : ∀ e, branching' (e.rename f) = branching e)
    (hlabel : ∀ id, label?' (f id) = label? id) (place : Nat) (taken : List (String × String)) :
    route branching' label?' place (taken.map (Prod.map f id)) (edges.map (Edge.rename f)) =
      (route branching label? place taken edges).map (Edge.rename f) := by
  induction edges generalizing place taken with
  | nil => rfl
  | cons e rest ih =>
    have hkey : explicitKey (e.rename f) = explicitKey e := rfl
    have htarget : label?' (e.rename f).target = label? e.target := hlabel e.target
    have htaken : keysAt (taken.map (Prod.map f id)) (e.rename f).source = keysAt taken e.source :=
      keysAt_rename hf taken e.source
    -- All that routing looks at is the same, so both sides take the same branch.
    simp only [List.map_cons, route, hbranching, hkey, htarget, htaken]
    split
    · split
      · rw [List.map_cons, ih]
        rfl
      · -- The new key is taken at the source under its new identifier.
        rw [List.map_cons, ← ih]
        rfl
    · rw [List.map_cons, ih]
      rfl

end Route

/-- Routing commutes with a renaming. -/
theorem normalize_rename (hf : Function.Injective f) :
    normalize (nodes.map (Node.rename f)) (edges.map (Edge.rename f)) pinned =
      (normalize nodes edges pinned).map (Edge.rename f) := by
  have hlabel : ∀ id, (lastNode? (nodes.map (Node.rename f)) (f id)).map (·.label) =
      (lastNode? nodes id).map (·.label) := by
    intro id
    rw [lastNode?_rename hf, Option.map_map]
    rfl
  rw [normalize, reservedKeys_rename (isBranching_rename hf)]
  exact route_rename hf (isBranching_rename hf) hlabel 0 _

end Routing

/-! ## Canonical form -/

/-- Roles are inferred from texts and degrees, so they stay. -/
theorem inferRoles_rename (hf : Function.Injective f) :
    inferRoles (nodes.map (Node.rename f)) (edges.map (Edge.rename f)) =
      (inferRoles nodes edges).map (Node.rename f) := by
  rw [inferRoles, inferRoles, List.map_map, List.map_map]
  refine List.map_congr_left fun n _ => ?_
  have hdegree : outDegree (edges.map (Edge.rename f)) (n.rename f).id = outDegree edges n.id :=
    outDegree_rename hf n.id
  rw [Function.comp_apply, hdegree]
  rfl

/-- **Canonical form commutes with a renaming** that keeps identifiers apart. -/
theorem canonicalize_rename (hf : Function.Injective f) (pinned : List String) :
    canonicalize (nodes.map (Node.rename f)) (edges.map (Edge.rename f)) pinned =
      ((canonicalize nodes edges pinned).1.map (Node.rename f),
        (canonicalize nodes edges pinned).2.map (Edge.rename f)) := by
  rw [canonicalize, Routing.normalize_rename hf, inferRoles_rename hf]
  rfl

end AgentFlow
