import AgentFlow.Proofs.Routing

/-!
# Routing goes source by source

What routing makes of the edges out of a node depends on these edges alone, and on the default keys
that they would be given: `filter_normalize`. Edges of other sources between them matter only as
far as they shift the places that a default key may be made of, which happens to no edge with an
identifier (`defaultKey_congr_place`).
-/

namespace AgentFlow.Routing

open Text

variable {branching : Edge → Bool} {label? : String → Option String} {place : Nat}
  {taken : List (String × String)} {nodes : List Node} {edges edges' : List Edge}
  {e : Edge} {x : String}

/-! ## One source -/

/-- The edges of a list, each with the default key that it would be given. -/
def offers (label? : String → Option String) : (place : Nat) → List Edge → List (Edge × String)
  | _, [] => []
  | place, e :: rest =>
    (e, defaultKey (label? e.target) e.id (place + 1)) :: offers label? (place + 1) rest

/-- The edges out of one node with their keys: those that are there, and else the default keys, kept
apart from the `used` ones. -/
def keyed : (used : List String) → List (Edge × String) → List Edge
  | _, [] => []
  | used, (e, base) :: rest =>
    if explicitKey e ≠ "" then keyedEdge e (explicitKey e) :: keyed used rest
    else
      let key := fresh "_" base used
      keyedEdge e key :: keyed (key :: used) rest

/-- The edges out of one node, routed by themselves. -/
def routeSource (offered : List (Edge × String)) : List Edge :=
  if 1 < offered.length then
    keyed ((offered.map fun (e, _) => explicitKey e).filter (· ≠ "")) offered
  else offered.map fun (e, _) => plainEdge e

/-! ## Offers -/

/-- An edge with an identifier is offered the same key wherever it stands. -/
theorem defaultKey_congr_place {label edgeId : Option String} (h : edgeId.getD "" ≠ "")
    (place place' : Int) : defaultKey label edgeId place = defaultKey label edgeId place' := by
  rw [defaultKey_eq, defaultKey_eq, if_pos h, if_pos h]

/-- The offers are made to the edges of the list, in order. -/
theorem map_fst_offers : (offers label? place edges).map Prod.fst = edges := by
  induction edges generalizing place with
  | nil => rfl
  | cons e rest ih => rw [offers, List.map_cons, ih]

/-- Offers to a list in two parts: the second part starts at the place where the first one ends. -/
theorem offers_append : offers label? place (edges ++ edges') =
    offers label? place edges ++ offers label? (place + edges.length) edges' := by
  induction edges generalizing place with
  | nil => rfl
  | cons e rest ih =>
    rw [List.cons_append, offers, ih, offers, List.length_cons, List.cons_append,
      Nat.add_right_comm place 1 rest.length, Nat.add_assoc place rest.length 1]

def offersAt (label? : String → Option String) (place : Nat) (edges : List Edge) (x : String) :
    List (Edge × String) :=
  (offers label? place edges).filter (·.1.source = x)

/-- The head of a list gets an offer if it leaves the node, and takes up a place in any case. -/
theorem offersAt_cons : offersAt label? place (e :: edges) x =
    if e.source = x then
      (e, defaultKey (label? e.target) e.id (place + 1)) :: offersAt label? (place + 1) edges x
    else offersAt label? (place + 1) edges x := by
  rw [offersAt, offers, List.filter_cons]
  simp only [decide_eq_true_eq]
  rfl

theorem map_fst_offersAt : (offersAt label? place edges x).map Prod.fst =
    edges.filter (·.source = x) :=
  calc (offersAt label? place edges x).map Prod.fst
      = ((offers label? place edges).map Prod.fst).filter (·.source = x) := by
        rw [List.filter_map]
        rfl
    _ = edges.filter (·.source = x) := by rw [map_fst_offers]

theorem map_offersAt {α : Type} (f : Edge → α) :
    (offersAt label? place edges x).map (fun (e, _) => f e) = (edges.filter (·.source = x)).map f :=
  calc (offersAt label? place edges x).map (fun (e, _) => f e)
      = ((offersAt label? place edges x).map Prod.fst).map f := by
        rw [List.map_map]
        rfl
    _ = (edges.filter (·.source = x)).map f := by rw [map_fst_offersAt]

/-- As many edges out of a node are offered keys as there are. -/
theorem length_offersAt : (offersAt label? place edges x).length = outDegree edges x := by
  rw [← List.length_map Prod.fst, map_fst_offersAt, outDegree, List.countP_eq_length_filter]

theorem offersAt_append : offersAt label? place (edges ++ edges') x =
    offersAt label? place edges x ++ offersAt label? (place + edges.length) edges' x := by
  rw [offersAt, offers_append, List.filter_append]
  rfl

theorem offersAt_singleton_of_ne (h : e.source ≠ x) : offersAt label? place [e] x = [] := by
  rw [offersAt_cons, if_neg h]
  rfl

/-- The offer to one edge with an identifier does not depend on its place. -/
theorem offersAt_singleton_congr (h : e.id.getD "" ≠ "") (place place' : Nat) :
    offersAt label? place [e] x = offersAt label? place' [e] x := by
  rw [offersAt_cons, offersAt_cons, defaultKey_congr_place h (place + 1) (place' + 1)]
  rfl

/-- Edges of other sources may be exchanged for others at their places. -/
theorem offersAt_congr
    (h : List.Forall₂ (fun e e' => e'.source = e.source ∧ (e.source = x → e' = e)) edges edges') :
    offersAt label? place edges' x = offersAt label? place edges x := by
  induction h generalizing place with
  | nil => rfl
  | @cons e e' _ _ hhead _ ih =>
    obtain ⟨hsource, heq⟩ := hhead
    rw [offersAt_cons, offersAt_cons, ih]
    by_cases hx : e.source = x
    · rw [heq hx]
    · rw [if_neg hx, if_neg (hsource ▸ hx)]

/-! ## All sources -/

theorem keysAt_cons (source key : String) : keysAt ((source, key) :: taken) x =
    if source = x then key :: keysAt taken x else keysAt taken x := by
  rw [keysAt, List.filter_cons]
  by_cases h : source = x
  · simp only [h, decide_true, if_true, List.map_cons]
    rfl
  · simp only [h, decide_false, Bool.false_eq_true, if_false]
    rfl

/-- The keys that are there at a source with several edges. -/
theorem keysAt_reservedKeys (h : ∀ e, e.source = x → branching e = true) :
    keysAt (reservedKeys branching edges) x =
      ((edges.filter (·.source = x)).map explicitKey).filter (· ≠ "") := by
  rw [keysAt, reservedKeys, List.filter_map, List.map_map, List.filter_filter, List.filter_map,
    List.filter_filter]
  refine congrArg _ (List.filter_congr fun e _ => ?_)
  by_cases hx : e.source = x
  · simp [hx, h e hx]
  · simp [hx]

/-- Source by source, too, routing goes edge by edge. -/
theorem forall₂_filter_route : List.Forall₂ (Routed branching) (edges.filter (·.source = x))
    ((route branching label? place taken edges).filter (·.source = x)) :=
  List.rel_filter (fun _ _ h => by simp [h.source_eq]) forall₂_route

theorem filter_cons_of_source_eq (h : e.source = x) :
    (e :: edges).filter (·.source = x) = e :: edges.filter (·.source = x) :=
  List.filter_cons_of_pos (decide_eq_true h)

theorem filter_cons_of_source_ne (h : e.source ≠ x) :
    (e :: edges).filter (·.source = x) = edges.filter (·.source = x) :=
  List.filter_cons_of_neg (by simpa using h)

/-- At a node whose edges branch, routing keeps the keys that are there and takes default keys,
apart from those taken at the node before. -/
theorem filter_route_of_branching (h : ∀ e, e.source = x → branching e = true) :
    (route branching label? place taken edges).filter (·.source = x) =
      keyed (keysAt taken x) (offersAt label? place edges x) := by
  induction edges generalizing place taken with
  | nil => rfl
  | cons e rest ih =>
    rw [offersAt_cons, route]
    by_cases hx : e.source = x
    · rw [if_pos (h e hx), if_pos hx, keyed, hx]
      dsimp only
      split
      · rw [filter_cons_of_source_eq (e := keyedEdge e _) hx, ih]
      · -- A key that is made up here is taken from now on.
        rw [filter_cons_of_source_eq (e := keyedEdge e _) hx, ih, keysAt_cons, if_pos rfl]
    · -- An edge of another source adds no edge of this one, and takes none of its keys.
      rw [if_neg hx]
      split
      · dsimp only
        split
        · rw [filter_cons_of_source_ne (e := keyedEdge e _) hx, ih]
        · rw [filter_cons_of_source_ne (e := keyedEdge e _) hx, ih, keysAt_cons, if_neg hx]
      · rw [filter_cons_of_source_ne (e := plainEdge e) hx, ih]

/-- At a node whose edges do not branch, routing makes all of them plain. -/
theorem filter_route_of_not_branching (h : ∀ e, e.source = x → branching e = false) :
    (route branching label? place taken edges).filter (·.source = x) =
      (edges.filter (·.source = x)).map plainEdge := by
  have hplain : List.Forall₂ (fun e e' => e' = plainEdge e) (edges.filter (·.source = x))
      ((route branching label? place taken edges).filter (·.source = x)) := by
    refine forall₂_of_mem (fun e he e' hrouted => ?_) forall₂_filter_route
    cases hrouted with
    | plain => rfl
    -- No edge of the node branches, so none is keyed.
    | keyed hbranching =>
      rw [h e (of_decide_eq_true (List.mem_filter.1 he).2)] at hbranching
      cases hbranching
  simpa using map_eq_of_forall₂ (f := plainEdge) (g := id) (fun _ _ h => h) hplain

/-- **Routing goes source by source**: of the edges out of a node it makes what it would make of
them alone. -/
theorem filter_normalize (nodes : List Node) (edges : List Edge) (x : String) :
    (normalize nodes edges []).filter (·.source = x) =
      routeSource (offersAt (labelOf? nodes) 0 edges x) := by
  have hbranching : ∀ e, e.source = x →
      isBranching nodes edges [] e = decide (1 < outDegree edges x) := by
    rintro e rfl
    exact isBranching_nil e
  rw [routeSource, length_offersAt, map_offersAt, map_offersAt]
  split
  · next hmany =>
    have hall : ∀ e, e.source = x → isBranching nodes edges [] e = true := fun e he => by
      rw [hbranching e he, decide_eq_true hmany]
    -- The keys taken at the start are the explicit keys of the edges of the node.
    rw [← keysAt_reservedKeys hall]
    exact filter_route_of_branching hall
  · next hfew =>
    exact filter_route_of_not_branching fun e he => by
      rw [hbranching e he, decide_eq_false hfew]

end AgentFlow.Routing
