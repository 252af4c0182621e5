import AgentFlow.Canonical
import AgentFlow.Proofs.RoleSignals
import AgentFlow.Proofs.Routing

/-!
# How far canonical form is a fixed point

Inferring roles twice is inferring once, and the second routing of a graph sees the same branching
as the first. What it may change is a key: a key that is there is trimmed, and a default key made of
the start of an identifier need not be. `canonicalize_canonicalize_iff` says that this is all.

The graphs that are left alone are those whose kinds follow the out-degrees, whose conditional edges
have trimmed keys, and whose roles are in order and complete (`canonicalize_eq_self_iff`).
-/

namespace AgentFlow

open Routing Text

variable {nodes : List Node} {edges : List Edge}

namespace Routing

/-- The second routing leaves an edge of the first alone exactly if the edge's key is trimmed. -/
theorem isSettled_iff_of_mem_normalize (nodes' : List Node) {e' : Edge}
    (h : e' ∈ normalize nodes edges []) :
    IsSettled (isBranching nodes' (normalize nodes edges []) []) e' ↔ HasTrimmedKey e' := by
  obtain ⟨e, -, he⟩ := exists_of_mem_route h
  have hbranching : isBranching nodes' (normalize nodes edges []) [] e' =
      isBranching nodes edges [] e := by
    rw [isBranching_nil, isBranching_nil, outDegree_normalize, he.source_eq]
  rw [IsSettled, hbranching]
  -- A plain edge is left alone in any case. A keyed one has a key already, which is kept if
  -- trimmed.
  cases he with
  | plain he =>
    rw [he]
    simp [plainEdge, HasTrimmedKey]
  | @keyed key he hkey _ =>
    have hne : key ≠ "" := by
      rintro rfl
      exact hkey rfl
    rw [he]
    simp [keyedEdge, HasTrimmedKey, hne]

/-- Routing twice is routing once exactly if the first routing gives no loose key. -/
theorem normalize_normalize_iff (nodes' : List Node) :
    normalize nodes' (normalize nodes edges []) [] = normalize nodes edges [] ↔
      ∀ e ∈ edges, ¬ GetsLooseKey (isBranching nodes edges []) (labelOf? nodes) e :=
  calc normalize nodes' (normalize nodes edges []) [] = normalize nodes edges []
    _ ↔ ∀ e' ∈ normalize nodes edges [],
          IsSettled (isBranching nodes' (normalize nodes edges []) []) e' := route_eq_self_iff
    _ ↔ ∀ e' ∈ normalize nodes edges [], HasTrimmedKey e' :=
      forall₂_congr fun _ => isSettled_iff_of_mem_normalize nodes'
    _ ↔ ∀ e ∈ edges, ¬ GetsLooseKey (isBranching nodes edges []) (labelOf? nodes) e :=
      forall_isTrimmed_route_iff fun _ => isTrimmed_of_mem_reservedKeys

end Routing

/-- Canonical form is a fixed point, and so are its edges alone, exactly if no edge is given a
loose key: one with several edges at its source, no key of its own, a target whose label has an
empty slug, and an identifier whose start ends in a blank. -/
theorem canonicalize_canonicalize_iff (nodes : List Node) (edges : List Edge) :
    (canonicalize (canonicalize nodes edges []).1 (canonicalize nodes edges []).2 [] =
        canonicalize nodes edges [] ↔
      ∀ e ∈ edges, ¬ GetsLooseKey (isBranching nodes edges []) (labelOf? nodes) e) ∧
    (normalize nodes (normalize nodes edges []) [] = normalize nodes edges [] ↔
      ∀ e ∈ edges, ¬ GetsLooseKey (isBranching nodes edges []) (labelOf? nodes) e) := by
  refine ⟨?_, normalize_normalize_iff nodes⟩
  rw [← normalize_normalize_iff (inferRoles nodes (normalize nodes edges []))]
  constructor
  · intro h
    exact congrArg Prod.snd h
  · intro h
    -- With the edges unchanged, the roles are inferred from the same out-degrees.
    show canonicalize (inferRoles nodes (normalize nodes edges [])) (normalize nodes edges []) [] =
      (inferRoles nodes (normalize nodes edges []), normalize nodes edges [])
    rw [canonicalize, h, inferRoles_idem]

/-- Two edges to nodes without labels, the start of an identifier ending in blanks. -/
theorem not_canonicalize_canonicalize :
    ¬ ∀ (nodes : List Node) (edges : List Edge),
      canonicalize (canonicalize nodes edges []).1 (canonicalize nodes edges []).2 [] =
        canonicalize nodes edges [] := by
  intro h
  have hab := h [{ id := "a" }, { id := "b" }, { id := "c" }]
    [{ id := some "abc   x", source := "a", target := "b" },
      { id := some "e2", source := "a", target := "c" }]
  revert hab
  decide +kernel

/-! ## Graphs in canonical form -/

/-- Bringing the nodes and edges into canonical form changes nothing. -/
def IsCanonical (nodes : List Node) (edges : List Edge) : Prop :=
  canonicalize nodes edges [] = (nodes, edges)

instance : Decidable (IsCanonical nodes edges) := inferInstanceAs (Decidable (_ = _))

/-- A graph is in canonical form exactly if routing leaves each edge alone, and inference each
node. -/
theorem isCanonical_iff : IsCanonical nodes edges ↔
    (∀ e ∈ edges, IsSettled (isBranching nodes edges []) e) ∧
      ∀ n ∈ nodes, n.inferRoles (outDegree edges n.id) = n := by
  rw [IsCanonical, canonicalize, Prod.mk.injEq, and_comm, ← route_eq_self_iff]
  refine and_congr_right fun h => ?_
  rw [show normalize nodes edges [] = edges from h, inferRoles, ← List.map_inj_left, List.map_id']

namespace IsCanonical

variable (h : IsCanonical nodes edges)

include h

/-- Whichever nodes the edges are routed for. -/
theorem normalize_eq_self (nodes' : List Node) : normalize nodes' edges [] = edges := by
  have hsame : isBranching nodes' edges [] = isBranching nodes edges [] := by
    funext e
    rw [isBranching_nil, isBranching_nil]
  refine route_eq_self_iff.2 ?_
  rw [hsame]
  exact (isCanonical_iff.1 h).1

/-- Where several edges leave a node of a canonical graph, each has a trimmed key. -/
theorem explicitKey_eq {e : Edge} (he : e ∈ edges) (hmany : 1 < outDegree edges e.source) :
    explicitKey e ≠ "" ∧ e.routeKey = some (explicitKey e) := by
  have hbranching : isBranching nodes edges [] e = true := by
    rw [isBranching_nil]
    exact decide_eq_true hmany
  exact ((isCanonical_iff.1 h).1 e he).explicitKey_eq hbranching

end IsCanonical

/-- Canonical form, said without the passes that bring a graph into it. An edge is conditional
exactly if its source has several edges; the conditional edges have keys without blanks around them,
and no others have one; the roles of a node are in order, each once, and hold all that the graph
shows. -/
structure CanonicalForm (nodes : List Node) (edges : List Edge) : Prop where
  conditional_iff : ∀ e ∈ edges, e.kind = .conditional ↔ 1 < outDegree edges e.source
  key : ∀ e ∈ edges, e.kind = .conditional →
    ∃ key, e.routeKey = some key ∧ key ≠ "" ∧ trim key = key
  plain : ∀ e ∈ edges, e.kind = .normal → e.routeKey = none
  nodup_roles : ∀ n ∈ nodes, n.roles.Nodup
  ordered_roles : ∀ n ∈ nodes, n.roles.Sublist Role.order
  signalled : ∀ n ∈ nodes, n.signalledRoles (outDegree edges n.id) ⊆ n.roles

/-- **Bringing a graph into canonical form changes nothing** exactly if the graph has that form. -/
theorem canonicalize_eq_self_iff (nodes : List Node) (edges : List Edge) :
    canonicalize nodes edges [] = (nodes, edges) ↔ CanonicalForm nodes edges := by
  show IsCanonical nodes edges ↔ _
  simp only [isCanonical_iff, isSettled_iff, isBranching_nil, decide_eq_true_eq,
    Node.inferRoles_eq_self_iff, Role.canonical_eq_self_iff]
  constructor
  · rintro ⟨hedges, hnodes⟩
    exact {
      conditional_iff := fun e he => (hedges e he).1
      key := fun e he => (hedges e he).2.1
      plain := fun e he => (hedges e he).2.2
      nodup_roles := fun n hn => Role.nodup_of_sublist_order (hnodes n hn).1
      ordered_roles := fun n hn => (hnodes n hn).1
      signalled := fun n hn => (hnodes n hn).2 }
  · intro h
    refine ⟨fun e he => ?_, fun n hn => ?_⟩
    · exact ⟨h.conditional_iff e he, h.key e he, h.plain e he⟩
    · exact ⟨h.ordered_roles n hn, h.signalled n hn⟩

end AgentFlow
