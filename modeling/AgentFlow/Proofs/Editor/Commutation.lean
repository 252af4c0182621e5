import AgentFlow.Proofs.Editor.Removal
import AgentFlow.Proofs.RoleClosure
import AgentFlow.Proofs.RoutingBySource

/-!
# Connections in either order

Two connections out of different nodes do not get in each other's way: whichever is made first, the
graph is the same but for the order of the two new edges (`connect_connect`). Each connection routes
all edges anew, but it leaves settled edges of other sources alone
(`filter_normalize_concat_of_ne`), and does not show in how those of another source are routed later
(`filter_normalize_concat_normalize`). The keys of the first connection stay only if they are
trimmed, so identifiers are asked to hold no blanks.
-/

namespace AgentFlow

open Routing Text

namespace Routing

variable {nodes : List Node} {edges : List Edge} {c d e : Edge} {x : String}

/-! ## Identifiers without blanks -/

def IsBlankFree (s : String) : Prop := ∀ c ∈ s.toList, isBlank c = false

instance : DecidablePred IsBlankFree := fun s =>
  List.decidableBAll (fun c : Char => isBlank c = false) s.toList

/-- The edge has no identifier, or one without blanks. -/
def HasBlankFreeId (e : Edge) : Prop := ∀ id, e.id = some id → IsBlankFree id

/-- Where the identifier holds no blanks, neither does the key that is made of its start. -/
theorem HasBlankFreeId.not_isLoose (h : HasBlankFreeId e) (label : Option String) :
    ¬ IsLoose label e.id := by
  rintro ⟨-, hends⟩
  obtain ⟨c, hlast, hblank⟩ := (Option.any_eq_true _ _).1 hends
  have hmem : c ∈ (e.id.getD "").toList := by
    rw [idStart, String.toList_ofList] at hlast
    exact List.mem_of_mem_take (List.mem_of_getLast? hlast)
  -- A loose key ends in a blank, which would be one of the identifier.
  cases hid : e.id with
  | none => simp [hid] at hmem
  | some id =>
    rw [hid] at hmem
    rw [h id hid c hmem] at hblank
    cases hblank

/-- So routing settles all edges at once: a second time it finds their keys trimmed. -/
theorem isSettled_of_mem_normalize (h : ∀ e ∈ edges, HasBlankFreeId e) :
    ∀ e ∈ normalize nodes edges [],
      IsSettled (isBranching nodes (normalize nodes edges []) []) e :=
  route_eq_self_iff.1 <| (normalize_normalize_iff nodes).2
    fun e he hloose => (h e he).not_isLoose _ hloose.2.2

/-! ## One more edge -/

/-- An edge of another source changes nothing for a settled edge. -/
theorem IsSettled.concat (h : IsSettled (isBranching nodes edges []) e)
    (hc : c.source ≠ e.source) : IsSettled (isBranching nodes (edges ++ [c]) []) e := by
  have hsame : isBranching nodes (edges ++ [c]) [] e = isBranching nodes edges [] e := by
    rw [isBranching_nil, isBranching_nil, outDegree_concat, if_neg hc, Nat.add_zero]
  rw [IsSettled, hsame]
  exact h

/-- A new edge leaves the edges of other sources as they are, if these are settled. -/
theorem filter_normalize_concat_of_ne
    (h : ∀ e ∈ edges, IsSettled (isBranching nodes edges []) e) (hc : c.source ≠ x) :
    (normalize nodes (edges ++ [c]) []).filter (·.source = x) = edges.filter (·.source = x) := by
  have hrouted : List.Forall₂ (Routed (isBranching nodes (edges ++ [c]) []))
      ((edges ++ [c]).filter (·.source = x))
      ((normalize nodes (edges ++ [c]) []).filter (·.source = x)) := forall₂_filter_route
  rw [List.filter_append, filter_cons_of_source_ne hc, List.filter_nil, List.append_nil] at hrouted
  refine eq_of_forall₂_routed (fun e he => ?_) hrouted
  obtain ⟨hmem, hx⟩ := List.mem_filter.1 he
  exact (h e hmem).concat (of_decide_eq_true hx ▸ hc)

/-- For the edges of other sources it makes no difference whether an edge has been added before. -/
theorem filter_normalize_concat_normalize
    (h : ∀ e ∈ edges, IsSettled (isBranching nodes edges []) e) (hd : d.source ≠ x)
    (hid : c.id.getD "" ≠ "") :
    (normalize nodes (normalize nodes (edges ++ [d]) [] ++ [c]) []).filter (·.source = x) =
      (normalize nodes (edges ++ [c]) []).filter (·.source = x) := by
  have hkept : List.Forall₂ (fun e e' => e'.source = e.source ∧ (e.source = x → e' = e))
      (edges ++ [d]) (normalize nodes (edges ++ [d]) []) := by
    refine forall₂_of_mem (fun e he e' hrouted => ⟨hrouted.source_eq, fun hx => ?_⟩) forall₂_route
    rcases List.mem_append.1 he with he | he
    · exact hrouted.eq_of_isSettled ((h e he).concat (hx ▸ hd))
    · rw [List.mem_singleton.1 he] at hx
      exact absurd hx hd
  have hbefore : offersAt (labelOf? nodes) 0 (normalize nodes (edges ++ [d]) []) x =
      offersAt (labelOf? nodes) 0 edges x := by
    rw [offersAt_congr hkept, offersAt_append, offersAt_singleton_of_ne hd, List.append_nil]
  -- What routing leaves at a source depends only on the offers made there, in order.
  rw [filter_normalize, filter_normalize, offersAt_append, offersAt_append, hbefore,
    offersAt_singleton_congr hid]

/-! ## Two more edges -/

/-- An edge that may be added: it has an identifier, which holds no blanks. -/
structure IsFit (e : Edge) : Prop where
  hasId : e.id.getD "" ≠ ""
  blankFree : HasBlankFreeId e

section Swap

variable (h : ∀ e ∈ edges, IsSettled (isBranching nodes edges []) e)
  (hedges : ∀ e ∈ edges, HasBlankFreeId e)

include h hedges

/-- What stands at a source does not depend on when an edge of another was added. -/
theorem filter_normalize_swap_of_ne (hc : IsFit c) (hx : d.source ≠ x) :
    (normalize nodes (normalize nodes (edges ++ [c]) [] ++ [d]) []).filter (·.source = x) =
      (normalize nodes (normalize nodes (edges ++ [d]) [] ++ [c]) []).filter (·.source = x) := by
  have hall : ∀ e ∈ edges ++ [c], HasBlankFreeId e :=
    List.forall_mem_append.2 ⟨hedges, List.forall_mem_singleton.2 hc.blankFree⟩
  rw [filter_normalize_concat_of_ne (isSettled_of_mem_normalize hall) hx,
    filter_normalize_concat_normalize h hx hc.hasId]

/-- The two orders differ in the places of the new edges only. -/
theorem exists_normalize_swap (hc : IsFit c) (hd : IsFit d) (hne : c.source ≠ d.source) :
    ∃ kept c' d',
      normalize nodes (normalize nodes (edges ++ [c]) [] ++ [d]) [] = kept ++ [c', d'] ∧
      normalize nodes (normalize nodes (edges ++ [d]) [] ++ [c]) [] = kept ++ [d', c'] := by
  have hsources : ∀ c d : Edge, (normalize nodes (normalize nodes (edges ++ [c]) [] ++ [d]) []).map
      (·.source) = edges.map (·.source) ++ [c.source, d.source] := fun c d => by simp
  -- Two lists with the same elements at each source differ in how the sources alternate only.
  refine exists_swap_of_filter_eq hne (hsources c d) (hsources d c) fun x => ?_
  by_cases hx : d.source = x
  · exact (filter_normalize_swap_of_ne h hedges hd (hx ▸ hne)).symm
  · exact filter_normalize_swap_of_ne h hedges hc hx

end Swap

end Routing

namespace Graph

variable {g : Graph} {source target id s₁ t₁ e₁ s₂ t₂ e₂ : String}

/-! ## Two connections -/

/-- A connection under an identifier without blanks may be added. -/
theorem isFit_connection (hid : id ≠ "") (hblank : IsBlankFree id) :
    IsFit (connection source target id) where
  hasId := hid
  blankFree := by
    rintro _ ⟨⟩
    exact hblank

/-- Nodes that are not connected yet can be. -/
theorem connect_eq_ok_of_free (hsource : source ∈ nodeIds g.nodes)
    (htarget : target ∈ nodeIds g.nodes)
    (hfree : ∀ e ∈ g.edges, e.source = source → e.target ≠ target) :
    g.connect source target id = .ok (g.withConnection source target id) := by
  have hconnected : g.isConnected source target = false := by
    simpa [isConnected] using hfree
  refine connect_eq_ok_iff.2 ⟨hsource, htarget, ?_⟩
  rw [hconnected]
  rfl

/-- A connection out of one node leaves those out of another to be made. -/
theorem free_withConnection (hne : s₁ ≠ s₂)
    (hfree : ∀ e ∈ g.edges, e.source = s₂ → e.target ≠ t₂) :
    ∀ e ∈ (g.withConnection s₁ t₁ e₁).edges, e.source = s₂ → e.target ≠ t₂ := by
  intro e' he' hsource
  obtain ⟨e, he, hrouted⟩ := exists_of_mem_route he'
  rw [hrouted.source_eq] at hsource
  rw [hrouted.target_eq]
  rcases List.mem_append.1 he with he | he
  · exact hfree e he hsource
  · rw [List.mem_singleton.1 he] at hsource
    exact absurd hsource hne

/-- The edges after two connections. -/
def twiceConnected (g : Graph) (s₁ t₁ e₁ s₂ t₂ e₂ : String) : List Edge :=
  normalize g.nodes
    (normalize g.nodes (g.edges ++ [connection s₁ t₁ e₁]) [] ++ [connection s₂ t₂ e₂]) []

/-- Both times the edges are routed as if no role had been inferred in between, and the roles are
those that all edges show. -/
theorem withConnection_withConnection :
    (g.withConnection s₁ t₁ e₁).withConnection s₂ t₂ e₂ =
      { g with
        nodes := inferRoles g.nodes (g.twiceConnected s₁ t₁ e₁ s₂ t₂ e₂)
        edges := g.twiceConnected s₁ t₁ e₁ s₂ t₂ e₂ } := by
  have hmore : ∀ x, outDegree (normalize g.nodes (g.edges ++ [connection s₁ t₁ e₁]) []) x ≤
      outDegree (g.twiceConnected s₁ t₁ e₁ s₂ t₂ e₂) x := fun x => by
    simp only [twiceConnected, outDegree_normalize, outDegree_concat]
    exact Nat.le_add_right _ _
  have hedges : normalize (g.withConnection s₁ t₁ e₁).nodes
      ((g.withConnection s₁ t₁ e₁).edges ++ [connection s₂ t₂ e₂]) [] =
        g.twiceConnected s₁ t₁ e₁ s₂ t₂ e₂ := normalize_inferRoles
  have hnodes : inferRoles (g.withConnection s₁ t₁ e₁).nodes
      (g.twiceConnected s₁ t₁ e₁ s₂ t₂ e₂) =
        inferRoles g.nodes (g.twiceConnected s₁ t₁ e₁ s₂ t₂ e₂) := inferRoles_inferRoles_of_le hmore
  rw [withConnection, rebuild_eq, hedges, hnodes]
  rfl

/-- Both connections succeed, one after the other. -/
theorem connect_bind_connect (hs₁ : s₁ ∈ nodeIds g.nodes) (ht₁ : t₁ ∈ nodeIds g.nodes)
    (hs₂ : s₂ ∈ nodeIds g.nodes) (ht₂ : t₂ ∈ nodeIds g.nodes) (hne : s₁ ≠ s₂)
    (hfree₁ : ∀ e ∈ g.edges, e.source = s₁ → e.target ≠ t₁)
    (hfree₂ : ∀ e ∈ g.edges, e.source = s₂ → e.target ≠ t₂) :
    (g.connect s₁ t₁ e₁ >>= fun g' => g'.connect s₂ t₂ e₂) =
      .ok ((g.withConnection s₁ t₁ e₁).withConnection s₂ t₂ e₂) := by
  rw [connect_eq_ok_of_free hs₁ ht₁ hfree₁]
  have hids : nodeIds (g.withConnection s₁ t₁ e₁).nodes = nodeIds g.nodes := nodeIds_inferRoles
  exact connect_eq_ok_of_free (hids ▸ hs₂) (hids ▸ ht₂) (free_withConnection hne hfree₂)

/-- The new edges come last, in the order in which they were made. -/
theorem map_link_twiceConnected : (g.twiceConnected s₁ t₁ e₁ s₂ t₂ e₂).map Edge.link =
    g.edges.map Edge.link ++ [(some e₁, s₁, t₁), (some e₂, s₂, t₂)] := by
  simp [twiceConnected, connection, Edge.link]

/-- **Two connections out of different nodes may be made in either order**: both orders succeed, and
they leave the same nodes and the same edges, except that the two new edges, which come last, are
exchanged. -/
theorem connect_connect (hcanonical : IsCanonical g.nodes g.edges)
    (hedges : ∀ e ∈ g.edges, HasBlankFreeId e)
    (hs₁ : s₁ ∈ nodeIds g.nodes) (ht₁ : t₁ ∈ nodeIds g.nodes)
    (hs₂ : s₂ ∈ nodeIds g.nodes) (ht₂ : t₂ ∈ nodeIds g.nodes) (hne : s₁ ≠ s₂)
    (hfree₁ : ∀ e ∈ g.edges, e.source = s₁ → e.target ≠ t₁)
    (hfree₂ : ∀ e ∈ g.edges, e.source = s₂ → e.target ≠ t₂)
    (he₁ : e₁ ≠ "") (hblank₁ : IsBlankFree e₁) (he₂ : e₂ ≠ "") (hblank₂ : IsBlankFree e₂) :
    ∃ nodes edges f₁ f₂,
      (g.connect s₁ t₁ e₁ >>= fun g' => g'.connect s₂ t₂ e₂) =
        .ok { g with nodes := nodes, edges := edges ++ [f₁, f₂] } ∧
      (g.connect s₂ t₂ e₂ >>= fun g' => g'.connect s₁ t₁ e₁) =
        .ok { g with nodes := nodes, edges := edges ++ [f₂, f₁] } ∧
      edges.map Edge.link = g.edges.map Edge.link ∧
      f₁.link = (some e₁, s₁, t₁) ∧ f₂.link = (some e₂, s₂, t₂) := by
  obtain ⟨kept, f₁, f₂, hfirst, hsecond⟩ : ∃ kept f₁ f₂,
      g.twiceConnected s₁ t₁ e₁ s₂ t₂ e₂ = kept ++ [f₁, f₂] ∧
      g.twiceConnected s₂ t₂ e₂ s₁ t₁ e₁ = kept ++ [f₂, f₁] :=
    exists_normalize_swap (isCanonical_iff.1 hcanonical).1 hedges (isFit_connection he₁ hblank₁)
      (isFit_connection he₂ hblank₂) hne
  have hnodes : inferRoles g.nodes (kept ++ [f₂, f₁]) = inferRoles g.nodes (kept ++ [f₁, f₂]) :=
    inferRoles_congr fun _ _ => ((List.Perm.swap f₁ f₂ []).append_left kept).countP_eq _
  -- Routing keeps the links of edges, so the kept ones and the new ones can be told from these.
  have hlinks : (kept ++ [f₁, f₂]).map Edge.link =
      g.edges.map Edge.link ++ [(some e₁, s₁, t₁), (some e₂, s₂, t₂)] := by
    rw [← hfirst, map_link_twiceConnected]
  rw [List.map_append] at hlinks
  obtain ⟨hkept, hnew⟩ := List.append_inj' hlinks rfl
  refine ⟨inferRoles g.nodes (kept ++ [f₁, f₂]), kept, f₁, f₂, ?_, ?_, hkept, ?_⟩
  · rw [connect_bind_connect hs₁ ht₁ hs₂ ht₂ hne hfree₁ hfree₂, withConnection_withConnection,
      hfirst]
  · rw [connect_bind_connect hs₂ ht₂ hs₁ ht₁ hne.symm hfree₂ hfree₁,
      withConnection_withConnection, hsecond, hnodes]
  · simpa using hnew

/-- One edge out of `a` and one out of `b`, between nodes of which two have the same label. -/
def twinGraph : Graph where
  nodes := [{ id := "a", roles := [.agent] }, { id := "b", label := "Next", roles := [.agent] },
    { id := "c", label := "Next", roles := [.agent] }]
  edges := [{ id := some "ab", source := "a", target := "b" },
    { id := some "bc", source := "b", target := "c" }]

/-- Both connections make a fork. The keys of either fork are those that it would get without the
other. -/
theorem connect_connect_twins : ∃ nodes edges f₁ f₂,
    (twinGraph.connect "a" "c" "ac" >>= fun g' => g'.connect "b" "a" "ba") =
      .ok { twinGraph with nodes := nodes, edges := edges ++ [f₁, f₂] } ∧
    (twinGraph.connect "b" "a" "ba" >>= fun g' => g'.connect "a" "c" "ac") =
      .ok { twinGraph with nodes := nodes, edges := edges ++ [f₂, f₁] } ∧
    (edges ++ [f₁, f₂]).map (fun e => (e.id, e.routeKey)) =
      [(some "ab", some "next"), (some "bc", some "next"), (some "ac", some "next_2"),
        (some "ba", some "route_ba")] := by
  have hedges : ∀ e ∈ twinGraph.edges, HasBlankFreeId e := by
    have hids : ∀ id ∈ edgeIds twinGraph.edges, IsBlankFree id := by decide +kernel
    exact fun e he id hid => hids id (mem_edgeIds.2 ⟨e, he, hid⟩)
  obtain ⟨nodes, edges, f₁, f₂, hfirst, hsecond, -⟩ :=
    @connect_connect twinGraph "a" "c" "ac" "b" "a" "ba" (by decide +kernel) hedges (by decide)
      (by decide) (by decide) (by decide) (by decide) (by decide) (by decide) (by decide)
      (by decide +kernel) (by decide) (by decide +kernel)
  have hkeys : (twinGraph.connect "a" "c" "ac" >>= fun g' => g'.connect "b" "a" "ba").toOption.map
      (·.edges.map fun e => (e.id, e.routeKey)) =
        some [(some "ab", some "next"), (some "bc", some "next"), (some "ac", some "next_2"),
          (some "ba", some "route_ba")] := by
    decide +kernel
  rw [hfirst] at hkeys
  exact ⟨nodes, edges, f₁, f₂, hfirst, hsecond, Option.some.inj hkeys⟩

end Graph

end AgentFlow
