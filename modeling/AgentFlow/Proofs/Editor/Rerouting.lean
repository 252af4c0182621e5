import AgentFlow.Proofs.Editor.EdgeIds

/-!
# Routing edges that have been routed

Routing looks at little of an edge: its identifier and its ends, and its key if it is to be
conditional (`normalize_congr`). So it makes no difference whether edges that go are dropped before
routing or after it, as long as those that stay conditional have had keys all along
(`normalize_filter_normalize`).
-/

namespace AgentFlow.Routing

open Text

variable {branching branching' : Edge → Bool} {label? : String → Option String} {place : Nat}
  {taken : List (String × String)} {nodes nodes' : List Node} {edges edges' : List Edge}
  {pinned pinned' : List String} {e e' : Edge}

/-! ## What routing looks at -/

/-- A normal edge is its link. -/
theorem plainEdge_congr (h : e'.link = e.link) : plainEdge e' = plainEdge e := by
  obtain ⟨hid, hsource, htarget⟩ := Edge.link_eq_iff.1 h
  rw [plainEdge, plainEdge, hid, hsource, htarget]

/-- A conditional edge is its link and its key. -/
theorem keyedEdge_congr (h : e'.link = e.link) (key : String) :
    keyedEdge e' key = keyedEdge e key := by
  obtain ⟨hid, hsource, htarget⟩ := Edge.link_eq_iff.1 h
  rw [keyedEdge, keyedEdge, hid, hsource, htarget]

/-- Two edges that routing cannot tell apart: they have the same identifier and ends, and both are
to be conditional, with the same key, or neither is. -/
structure RoutedAlike (branching branching' : Edge → Bool) (e e' : Edge) : Prop where
  link_eq : e'.link = e.link
  branching_eq : branching' e' = branching e
  key_eq : branching e = true → explicitKey e' = explicitKey e

/-- Edges that routing cannot tell apart are routed alike. -/
theorem route_congr (h : List.Forall₂ (RoutedAlike branching branching') edges edges') :
    route branching' label? place taken edges' = route branching label? place taken edges := by
  induction h generalizing place taken with
  | nil => rfl
  | @cons e e' _ _ halike _ ih =>
    rw [route, route, halike.branching_eq]
    cases he : branching e with
    | false => simp only [Bool.false_eq_true, if_false, plainEdge_congr halike.link_eq, ih]
    -- The key that is taken is the same, so what is taken further on is too.
    | true =>
      obtain ⟨hid, hsource, htarget⟩ := Edge.link_eq_iff.1 halike.link_eq
      simp only [if_true, halike.key_eq he, hid, hsource, htarget,
        keyedEdge_congr halike.link_eq, ih]

/-- They have the same keys set aside. -/
theorem reservedKeys_congr (h : List.Forall₂ (RoutedAlike branching branching') edges edges') :
    reservedKeys branching' edges' = reservedKeys branching edges := by
  induction h with
  | nil => rfl
  | @cons e e' rest rest' halike _ ih =>
    have hrest : (rest'.filter fun e => branching' e && explicitKey e ≠ "").map
        (fun e => (e.source, explicitKey e)) =
          (rest.filter fun e => branching e && explicitKey e ≠ "").map
            fun e => (e.source, explicitKey e) := ih
    have hsource : e'.source = e.source := (Edge.link_eq_iff.1 halike.link_eq).2.1
    rw [reservedKeys, reservedKeys, List.filter_cons, List.filter_cons, halike.branching_eq]
    cases he : branching e with
    | false => simpa using hrest
    | true =>
      rw [halike.key_eq he]
      split
      · rw [List.map_cons, List.map_cons, hrest, hsource, halike.key_eq he]
      · exact hrest

/-- So they are the same once they are routed. -/
theorem normalize_congr (h : List.Forall₂
      (RoutedAlike (isBranching nodes edges pinned) (isBranching nodes edges' pinned'))
      edges edges') :
    normalize nodes edges' pinned' = normalize nodes edges pinned := by
  rw [normalize, normalize, reservedKeys_congr h]
  exact route_congr h

/-- Without pins, the edges that have to have the same key are those at a source of several. -/
theorem normalize_nil_congr (h : List.Forall₂ (fun e e' => e'.link = e.link ∧
      (1 < outDegree edges e.source → explicitKey e' = explicitKey e)) edges edges') :
    normalize nodes edges' [] = normalize nodes edges [] := by
  have hsources : edges'.map (·.source) = edges.map (·.source) :=
    map_eq_of_forall₂ (fun _ _ h => (Edge.link_eq_iff.1 h.1).2.1) h
  refine normalize_congr (h.imp fun e e' ⟨hlink, hkey⟩ => ⟨hlink, ?_, fun he => hkey ?_⟩)
  · rw [isBranching_nil, isBranching_nil, outDegree_congr hsources, (Edge.link_eq_iff.1 hlink).2.1]
  · rwa [isBranching_nil, decide_eq_true_eq] at he

/-! ## Dropping edges -/

/-- Edges may be dropped before or after they are routed, if which ones does not depend on their
kinds and keys, and if the edges that stay conditional had keys from the start. -/
theorem normalize_filter_normalize {keep : Edge → Bool}
    (hkeep : ∀ e e', e'.link = e.link → keep e' = keep e)
    (hkeys : ∀ e ∈ edges.filter keep, 1 < outDegree (edges.filter keep) e.source →
      explicitKey e ≠ "") :
    normalize nodes' ((normalize nodes edges []).filter keep) [] =
      normalize nodes' (edges.filter keep) [] := by
  have hkept : ∀ e e', Routed (isBranching nodes edges []) e e' →
      (keep e = true ↔ keep e' = true) := fun e e' h => by rw [hkeep e e' h.link_eq]
  have hrouted : List.Forall₂ (Routed (isBranching nodes edges [])) (edges.filter keep)
      ((normalize nodes edges []).filter keep) :=
    List.rel_filter (fun e e' => hkept e e') forall₂_route
  refine normalize_nil_congr <|
    forall₂_of_mem (fun e he e' h => ⟨h.link_eq, fun hmany => ?_⟩) hrouted
  -- What is conditional among the edges that are left was so among all of them.
  have hbranching : isBranching nodes edges [] e = true := by
    rw [isBranching_nil, decide_eq_true_eq]
    exact Nat.lt_of_lt_of_le hmany (outDegree_filter_le keep edges e.source)
  exact h.explicitKey_eq hbranching (hkeys e he hmany)

end AgentFlow.Routing
