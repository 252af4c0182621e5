import AgentFlow.Proofs.Plan.Branches
import AgentFlow.Proofs.Routing

/-!
# When route keys keep their meaning

A branch takes the keys of its edges from left to right and numbers a key that is taken. The number
that a repeated key gets can make the very key of a later edge, which is then taken although no
other edge has it. `keepsMeaning_normalize_iff` says that this is the only way in which a key loses
its meaning.
-/

namespace AgentFlow

open Text

/-! ## Numbered keys in the way of others -/

/-- The keys, being made distinct from left to right, have one that occurs only once but has been
given to an earlier one. -/
def HasPreempted (keys : List String) : Prop :=
  ∃ before key after, keys = before ++ key :: after ∧ key ∉ before ++ after ∧
    key ∈ freshAll "_" [] before

/-- If no key is preempted, only keys that occur twice clash. -/
theorem one_lt_count_of_mem_clashes {keys : List String} (h : ¬ HasPreempted keys) {key : String}
    (hkey : key ∈ clashes "_" [] keys) : 1 < keys.count key := by
  obtain ⟨before, after, rfl, hgiven⟩ := mem_clashes_iff.1 hkey
  rw [List.append_nil] at hgiven
  -- A key that occurs once is in no other place, so it would have been preempted.
  by_contra hcount
  have hothers : key ∉ before ++ after := by
    rw [List.count_append, List.count_cons_self] at hcount
    rw [← List.count_eq_zero, List.count_append]
    omega
  exact h ⟨before, key, after, rfl, hothers, hgiven⟩

/-- A preempted key clashes, though it occurs once. -/
theorem exists_mem_clashes_of_hasPreempted {keys : List String} (h : HasPreempted keys) :
    ∃ key ∈ clashes "_" [] keys, keys.count key = 1 := by
  obtain ⟨before, key, after, rfl, hothers, hgiven⟩ := h
  refine ⟨key, mem_clashes_iff.2 ⟨before, after, rfl, List.mem_append_left _ hgiven⟩, ?_⟩
  rw [← List.count_eq_zero, List.count_append] at hothers
  rw [List.count_append, List.count_cons_self]
  omega

namespace Plan

variable {nodes : List Node} {edges : List Edge} {entryId : Option String} {id : String} {p : Plan}

/-! ## Looking up a route -/

/-- Where the routing table at a key leads for a route key. -/
def target? (p : Plan) (source key : String) : Option String :=
  (p.branches.find? (·.source = source)).bind fun b =>
    (b.routes.find? (·.key = key)).map (·.target)

/-- A route is looked up in the branch of the node. -/
theorem Parts.target?_eq (h : Parts nodes edges entryId p) (hids : (nodeIds nodes).Nodup)
    (hid : id ∈ nodeIds nodes) (hne : conditionalFrom edges id ≠ []) (key : String) :
    p.target? (keyOf nodes id) key =
      ((branchFrom nodes id (conditionalFrom edges id)).routes.find? (·.key = key)).map
        (·.target) := by
  have hfind : p.branches.find? (·.source = keyOf nodes id) =
      some (branchFrom nodes id (conditionalFrom edges id)) := by
    rw [← List.head?_filter, h.filter_branches hids hid, if_neg hne]
    rfl
  rw [target?, hfind]
  rfl

/-- An edge whose key has not been given to an earlier one has its row under that key. -/
theorem find?_routes_branchFrom {before after : List Edge} {e : Edge}
    (hfree : wantedKey nodes e ∉ freshAll "_" [] (before.map (wantedKey nodes))) :
    (branchFrom nodes id (before ++ e :: after)).routes.find? (·.key = wantedKey nodes e) =
      some ⟨wantedKey nodes e, keyOf nodes e.target⟩ := by
  have hlen : (freshAll "_" [] (before.map (wantedKey nodes))).length =
      (before.map fun e => keyOf nodes e.target).length := by simp
  -- The rows of earlier edges have other keys, so the search goes past them.
  have hbefore : (branchFrom nodes id before).routes.find? (·.key = wantedKey nodes e) = none := by
    rw [List.find?_eq_none]
    intro r hr hkey
    have hmem : r.key ∈ (branchFrom nodes id before).routes.map Route.key := List.mem_map_of_mem hr
    rw [map_key_branchFrom, of_decide_eq_true hkey] at hmem
    exact hfree hmem
  rw [routes_branchFrom, List.map_append, List.map_append, freshAll_append, List.append_nil,
    List.zipWith_append hlen, ← routes_branchFrom nodes id before, List.find?_append, hbefore,
    List.map_cons, freshAll, fresh_of_notMem hfree]
  simp

/-! ## Keys that keep their meaning -/

/-- Every conditional edge asks for its own key. -/
def IsKeyed (edges : List Edge) : Prop :=
  ∀ e ∈ edges, e.isConditional = true → Routing.explicitKey e ≠ ""

/-- Routing gives keys to all conditional edges. -/
theorem isKeyed_normalize (given : List Node) (routed : List Edge) (pinned : List String) :
    IsKeyed (Routing.normalize given routed pinned) := by
  intro e' he' hconditional
  obtain ⟨e, -, he⟩ := Routing.exists_of_mem_route he'
  obtain ⟨key, hkey, hne⟩ := he.exists_key (of_decide_eq_true hconditional)
  rw [Routing.explicitKey, hkey]
  exact hne

/-- An edge with a key asks for it. -/
theorem wantedKey_eq_explicitKey (h : IsKeyed edges) {e : Edge}
    (he : e ∈ conditionalFrom edges id) : wantedKey nodes e = Routing.explicitKey e := by
  obtain ⟨hmem, -, hconditional⟩ := mem_conditionalFrom.1 he
  exact if_neg (h e hmem hconditional)

def explicitKeys (edges : List Edge) (id : String) : List String :=
  (conditionalFrom edges id).map Routing.explicitKey

/-- The conditional edges of a node ask for their own keys. -/
theorem map_wantedKey_conditionalFrom (h : IsKeyed edges) (id : String) :
    (conditionalFrom edges id).map (wantedKey nodes) = explicitKeys edges id :=
  List.map_congr_left fun _ he => wantedKey_eq_explicitKey h he

/-- Where the keys of a node's conditional edges are distinct, its routes have them. -/
theorem routes_branchFrom_of_nodup (h : IsKeyed edges) (hkeys : (explicitKeys edges id).Nodup) :
    (branchFrom nodes id (conditionalFrom edges id)).routes =
      (conditionalFrom edges id).map fun e => ⟨Routing.explicitKey e, keyOf nodes e.target⟩ := by
  rw [routes_branchFrom, map_wantedKey_conditionalFrom h,
    freshAll_of_nodup hkeys fun _ _ => List.not_mem_nil, explicitKeys, List.zipWith_map,
    List.zipWith_self]

/-- Route keys keep their meaning in a plan. A key that one conditional edge of a node has leads to
the target of that edge, and only keys that several of them have are renamed. -/
structure KeepsMeaning (nodes : List Node) (edges : List Edge) (p : Plan) : Prop where
  leads : ∀ id before e after, conditionalFrom edges id = before ++ e :: after →
    (∀ e' ∈ before ++ after, Routing.explicitKey e' ≠ Routing.explicitKey e) →
      p.target? (keyOf nodes id) (Routing.explicitKey e) = some (keyOf nodes e.target)
  renamed : ∀ b ∈ p.branches, ∀ id ∈ nodeIds nodes, b.source = keyOf nodes id →
    ∀ key ∈ b.renamed, 1 < (explicitKeys edges id).count key

/-- The branch of a node with a preempted key reports a key as renamed that only one edge has. -/
theorem Parts.exists_renamed_of_hasPreempted (h : Parts nodes edges entryId p)
    (hgraph : Intact nodes edges) (hkeyed : IsKeyed edges)
    (hpreempted : HasPreempted (explicitKeys edges id)) :
    id ∈ nodeIds nodes ∧ ∃ b ∈ p.branches, b.source = keyOf nodes id ∧
      ∃ key ∈ b.renamed, (explicitKeys edges id).count key = 1 := by
  obtain ⟨key, hclash, hcount⟩ := exists_mem_clashes_of_hasPreempted hpreempted
  have hne : conditionalFrom edges id ≠ [] := by
    intro hnil
    rw [explicitKeys, hnil] at hclash
    cases hclash
  obtain ⟨e, he⟩ := List.exists_mem_of_ne_nil _ hne
  have hid : id ∈ nodeIds nodes := mem_nodeIds_of_mem_conditionalFrom hgraph he
  obtain ⟨hb, hsource⟩ := (h.mem_branches_at hid).2 ⟨hne, rfl⟩
  refine ⟨hid, _, hb, hsource, key, ?_, hcount⟩
  rw [renamed_branchFrom, map_wantedKey_conditionalFrom hkeyed]
  exact hclash

/-- Where no key is preempted, a key that only one edge has is still free when its turn comes. -/
theorem wantedKey_notMem_freshAll (hkeyed : IsKeyed edges)
    (hfree : ¬ HasPreempted (explicitKeys edges id)) {before after : List Edge} {e : Edge}
    (hes : conditionalFrom edges id = before ++ e :: after)
    (hunique : ∀ e' ∈ before ++ after, Routing.explicitKey e' ≠ Routing.explicitKey e) :
    wantedKey nodes e ∉ freshAll "_" [] (before.map (wantedKey nodes)) := by
  have hwanted : ∀ e' ∈ conditionalFrom edges id,
      wantedKey nodes e' = Routing.explicitKey e' := fun _ => wantedKey_eq_explicitKey hkeyed
  have hbefore : before.map (wantedKey nodes) = before.map Routing.explicitKey :=
    List.map_congr_left fun e' he' => hwanted e' (by simp [hes, he'])
  rw [hwanted e (by simp [hes]), hbefore]
  intro hgiven
  -- Given to an earlier edge, the key would be preempted.
  refine hfree ⟨before.map Routing.explicitKey, Routing.explicitKey e,
    after.map Routing.explicitKey, by simp [explicitKeys, hes], ?_, hgiven⟩
  rw [← List.map_append]
  intro hmem
  obtain ⟨e', he', heq⟩ := List.mem_map.1 hmem
  exact hunique e' he' heq

/-- In a plan, keys keep their meaning exactly if none is preempted. -/
theorem Parts.keepsMeaning_iff (h : Parts nodes edges entryId p) (hgraph : Intact nodes edges)
    (hkeyed : IsKeyed edges) :
    KeepsMeaning nodes edges p ↔ ∀ id, ¬ HasPreempted (explicitKeys edges id) := by
  constructor
  · intro hkeeps id hpreempted
    obtain ⟨hid, b, hb, hsource, key, hrenamed, hcount⟩ :=
      h.exists_renamed_of_hasPreempted hgraph hkeyed hpreempted
    have hlt := hkeeps.renamed b hb id hid hsource key hrenamed
    omega
  · intro hfree
    constructor
    case leads =>
      intro id before e after hes hunique
      have he : e ∈ conditionalFrom edges id := by simp [hes]
      have hid : id ∈ nodeIds nodes := mem_nodeIds_of_mem_conditionalFrom hgraph he
      have hnotGiven : wantedKey nodes e ∉ freshAll "_" [] (before.map (wantedKey nodes)) :=
        wantedKey_notMem_freshAll hkeyed (hfree id) hes hunique
      rw [h.target?_eq hgraph.nodup_ids hid (List.ne_nil_of_mem he), hes,
        ← wantedKey_eq_explicitKey hkeyed he, find?_routes_branchFrom hnotGiven]
      rfl
    case renamed =>
      intro b hb id hid hsource key hkey
      obtain ⟨-, rfl⟩ := (h.mem_branches_at hid).1 ⟨hb, hsource⟩
      rw [renamed_branchFrom, map_wantedKey_conditionalFrom hkeyed] at hkey
      exact one_lt_count_of_mem_clashes (hfree id) hkey

/-- **Route keys of routed edges keep their meaning** exactly if at no node a key that one edge has
is given to an earlier edge, whose own key was taken. -/
theorem keepsMeaning_normalize_iff {given : List Node} {routed : List Edge} {pinned : List String}
    (h : plan nodes (Routing.normalize given routed pinned) entryId = .ok p) :
    KeepsMeaning nodes (Routing.normalize given routed pinned) p ↔
      ∀ id, ¬ HasPreempted (explicitKeys (Routing.normalize given routed pinned) id) :=
  (parts_of_plan h).keepsMeaning_iff (plan_eq_ok_iff_assemble.1 h).1 (isKeyed_normalize _ _ _)

/-- A node with three conditional edges, of which the first two have the same key. -/
def suffixNodes : List Node :=
  ["A", "B", "C", "D"].map fun label => { id := label, label := label, roles := [.agent, .router] }

/-- The key of the third edge is what the second one gets. -/
def suffixEdges : List Edge := [
  { source := "A", target := "B", kind := .conditional, routeKey := some "x" },
  { source := "A", target := "C", kind := .conditional, routeKey := some "x" },
  { source := "A", target := "D", kind := .conditional, routeKey := some "x_2" }]

/-- The key of the third edge is preempted. -/
theorem keepsMeaning_normalize_iff_suffix :
    ∃ p, plan suffixNodes (Routing.normalize suffixNodes suffixEdges []) none = .ok p ∧
      ¬ KeepsMeaning suffixNodes (Routing.normalize suffixNodes suffixEdges []) p := by
  have hplan : ∃ p, plan suffixNodes (Routing.normalize suffixNodes suffixEdges []) none = .ok p :=
    ⟨_, rfl⟩
  obtain ⟨p, h⟩ := hplan
  refine ⟨p, h, fun hkeeps => ?_⟩
  refine (keepsMeaning_normalize_iff h).1 hkeeps "A" ⟨["x", "x"], "x_2", [], ?_, ?_, ?_⟩ <;>
    decide +kernel

/-- The third edge's key leads to the target of the second. -/
theorem not_keepsMeaning : ¬ ∀ nodes edges entryId p, Routing.normalize nodes edges [] = edges →
    plan nodes edges entryId = .ok p → KeepsMeaning nodes edges p := by
  intro hall
  have hplan : ∃ p, plan suffixNodes suffixEdges none = .ok p ∧
      p.target? "a" "x_2" = some "c" := ⟨_, rfl, by decide +kernel⟩
  obtain ⟨p, h, htarget⟩ := hplan
  have hkeeps := hall suffixNodes suffixEdges none p (by decide +kernel) h
  have hleads := hkeeps.leads "A" (suffixEdges.take 2) suffixEdges[2] [] rfl (by decide +kernel)
  have hd : p.target? "a" "x_2" = some "d" := hleads
  rw [htarget] at hd
  simp at hd

end Plan

end AgentFlow
