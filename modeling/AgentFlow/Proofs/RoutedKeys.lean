import AgentFlow.Proofs.Routing

/-!
# What routing promises

Routing makes exactly the branching edges conditional, keeps the keys that are there, and gives all
other conditional edges keys of their own: `isRouting_normalize`. No default key is one of the taken
ones (`notMem_taken_of_mem_zip_route`), and all keys of the list are taken from the start, wherever
they stand; so only keys that were there can be shared (`pairwise_route`).
-/

namespace AgentFlow.Routing

open Text

variable {branching : Edge → Bool} {label? : String → Option String} {place : Nat}
  {taken : List (String × String)} {nodes : List Node} {edges routed : List Edge}
  {pinned : List String}

/-! ## Taken keys -/

/-- A key is taken at a source exactly if the table of taken keys has the two together. -/
theorem mem_keysAt {source key : String} : key ∈ keysAt taken source ↔ (source, key) ∈ taken := by
  constructor
  · intro h
    obtain ⟨entry, hentry, rfl⟩ := List.mem_map.1 h
    obtain ⟨hmem, hsource⟩ := List.mem_filter.1 hentry
    obtain rfl := of_decide_eq_true hsource
    exact hmem
  · intro h
    exact List.mem_map.2 ⟨(source, key), List.mem_filter.2 ⟨h, by simp⟩, rfl⟩

/-- The keys that conditional edges have are all taken. -/
def AreTaken (branching : Edge → Bool) (taken : List (String × String)) (edges : List Edge) :
    Prop :=
  ∀ e ∈ edges, branching e = true → explicitKey e ≠ "" → (e.source, explicitKey e) ∈ taken

/-- Before the first edge all keys that are there are taken. -/
theorem areTaken_reservedKeys (branching : Edge → Bool) (edges : List Edge) :
    AreTaken branching (reservedKeys branching edges) edges := by
  intro e he hbranching hkey
  refine List.mem_map.2 ⟨e, List.mem_filter.2 ⟨he, ?_⟩, rfl⟩
  simp [hbranching, hkey]

/-! ## Default keys are apart from all others -/

/-- An edge and what stands in its place afterwards. -/
theorem routed_of_mem_zip_route {e e' : Edge}
    (h : (e, e') ∈ edges.zip (route branching label? place taken edges)) : Routed branching e e' :=
  (List.forall₂_iff_zip.1 forall₂_route).2 h

/-- A key that was there is one of those taken from the start, whatever has been taken since. -/
theorem mem_taken_of_mem_zip_route {e e' : Edge} {key : String} {since : List (String × String)}
    (htaken : AreTaken branching taken edges)
    (h : (e, e') ∈ edges.zip (route branching label? place since edges))
    (hexplicit : explicitKey e ≠ "") (hkey : e'.routeKey = some key) :
    (e'.source, key) ∈ taken := by
  cases routed_of_mem_zip_route h with
  | plain => cases hkey
  | keyed hbranching _ hkept =>
    cases hkey
    rw [hkept hexplicit]
    exact htaken e (List.of_mem_zip h).1 hbranching hexplicit

/-- A key that is given is none of the taken ones. -/
theorem notMem_taken_of_mem_zip_route {e e' : Edge} {key : String}
    (h : (e, e') ∈ edges.zip (route branching label? place taken edges))
    (hdefault : explicitKey e = "") (hkey : e'.routeKey = some key) :
    (e'.source, key) ∉ taken := by
  induction edges generalizing place taken with
  | nil => cases h
  | cons first rest ih =>
    rw [route] at h
    split at h
    · dsimp only at h
      split at h
      · next hfirst =>
        rcases List.mem_cons.1 h with heq | h
        · cases heq
          exact absurd hdefault hfirst
        · exact ih h
      · rcases List.mem_cons.1 h with heq | h
        · cases heq
          cases hkey
          exact fun hmem => fresh_notMem _ _ _ (mem_keysAt.2 hmem)
        · -- Later edges see more taken keys, not fewer.
          exact fun hmem => ih h (List.mem_cons_of_mem _ hmem)
    · rcases List.mem_cons.1 h with heq | h
      · cases heq
        cases hkey
      · exact ih h

/-- Two edges, each with what routing made of it: if they end up with the same key at the same
source, both had a key before. -/
def SharesOnlyExplicit (p q : Edge × Edge) : Prop :=
  ∀ key, p.2.source = q.2.source → p.2.routeKey = some key → q.2.routeKey = some key →
    explicitKey p.1 ≠ "" ∧ explicitKey q.1 ≠ ""

theorem SharesOnlyExplicit.symm {p q : Edge × Edge} (h : SharesOnlyExplicit p q) :
    SharesOnlyExplicit q p :=
  fun key hsource hq hp => (h key hsource.symm hp hq).symm

/-- No two edges share a key unless both had it before. -/
theorem pairwise_route (htaken : AreTaken branching taken edges) :
    (edges.zip (route branching label? place taken edges)).Pairwise SharesOnlyExplicit := by
  induction edges generalizing place taken with
  | nil => exact .nil
  | cons e rest ih =>
    obtain ⟨hhead, hrest⟩ := List.forall_mem_cons.1 htaken
    rw [route]
    split
    · next he =>
      dsimp only
      split
      · next hexplicit =>
        -- A key given later is not taken, but the key of the first edge is.
        refine List.pairwise_cons.2 ⟨?_, ih hrest⟩
        rintro ⟨f, f'⟩ hf key hsource hp hq
        cases hp
        refine ⟨hexplicit, fun hdefault => notMem_taken_of_mem_zip_route hf hdefault hq ?_⟩
        exact hsource ▸ hhead he hexplicit
      · -- The key just given was free, and from now on it is taken.
        refine List.pairwise_cons.2 ⟨?_, ih fun f hf hbranching hexplicit =>
          List.mem_cons_of_mem _ (hrest f hf hbranching hexplicit)⟩
        rintro ⟨f, f'⟩ hf key hsource hp hq
        cases hp
        exfalso
        by_cases hdefault : explicitKey f = ""
        · -- The later edge is given a key too, and not this one.
          refine notMem_taken_of_mem_zip_route hf hdefault hq ?_
          exact hsource ▸ List.mem_cons_self
        · -- The later edge had the key, so it was taken when this one was made up.
          have hmem := mem_taken_of_mem_zip_route hrest hf hdefault hq
          rw [← hsource] at hmem
          exact fresh_notMem _ _ _ (mem_keysAt.2 hmem)
    · refine List.pairwise_cons.2 ⟨?_, ih hrest⟩
      rintro ⟨f, f'⟩ hf key hsource hp hq
      cases hp

/-! ## Whole graphs -/

/-- The edge at a place, and the routed edge there. -/
structure IsAt (edges routed : List Edge) (i : Nat) (e e' : Edge) : Prop where
  given : edges[i]? = some e
  routed : routed[i]? = some e'

/-- An edge that stays conditional wherever it leads: it is pinned, conditional already, and between
two nodes of the graph. -/
def IsPinned (nodes : List Node) (pinned : List String) (e : Edge) : Prop :=
  (∃ id ∈ pinned, e.id = some id) ∧ e.kind = .conditional ∧
    e.source ∈ nodeIds nodes ∧ e.target ∈ nodeIds nodes

/-- The edges as routing leaves them. All keep their place, their identifier and their ends. An edge
is conditional exactly if its source occurs more than once or it is pinned; then it keeps its key
without blanks around it, or else has one that no other conditional edge of its source has. -/
structure IsRouting (nodes : List Node) (pinned : List String) (edges routed : List Edge) :
    Prop where
  length_eq : routed.length = edges.length
  id_eq : ∀ i e e', IsAt edges routed i e e' → e'.id = e.id
  source_eq : ∀ i e e', IsAt edges routed i e e' → e'.source = e.source
  target_eq : ∀ i e e', IsAt edges routed i e e' → e'.target = e.target
  conditional_iff : ∀ i e e', IsAt edges routed i e e' →
    (e'.kind = .conditional ↔
      1 < (edges.map (·.source)).count e.source ∨ IsPinned nodes pinned e)
  normal : ∀ i e e', IsAt edges routed i e e' → e'.kind = .normal → e'.routeKey = none
  kept : ∀ i e e', IsAt edges routed i e e' → e'.kind = .conditional → explicitKey e ≠ "" →
    e'.routeKey = some (explicitKey e)
  own : ∀ i e e', IsAt edges routed i e e' → e'.kind = .conditional → explicitKey e = "" →
    ∃ key, e'.routeKey = some key ∧ trim key ≠ "" ∧
      ∀ j f', j ≠ i → routed[j]? = some f' → f'.kind = .conditional → f'.source = e'.source →
        f'.routeKey ≠ some key
  shared : ∀ i j e e' f f', i ≠ j → IsAt edges routed i e e' → IsAt edges routed j f f' →
    e'.kind = .conditional → f'.kind = .conditional → e'.source = f'.source →
    e'.routeKey = f'.routeKey →
      explicitKey e ≠ "" ∧ explicitKey f = explicitKey e ∧ e'.routeKey = some (explicitKey e)

/-- An edge branches exactly if its source occurs several times or it is pinned. -/
theorem isBranching_iff {e : Edge} : isBranching nodes edges pinned e = true ↔
    1 < (edges.map (·.source)).count e.source ∨ IsPinned nodes pinned e := by
  have hpinned : e.id.any (· ∈ pinned) = true ↔ ∃ id ∈ pinned, e.id = some id := by
    simp [Option.any_eq_true, and_comm]
  rw [isBranching, Bool.or_eq_true, decide_eq_true_eq, outDegree_eq_count, IsPinned]
  simp only [Bool.and_eq_true, hpinned, Edge.isConditional, decide_eq_true_eq, and_assoc]

/-- The two edges at a place stand there together when the lists are zipped. -/
theorem IsAt.getElem?_zip {i : Nat} {e e' : Edge} (h : IsAt edges routed i e e') :
    (edges.zip routed)[i]? = some (e, e') :=
  List.getElem?_zip_eq_some.2 ⟨h.given, h.routed⟩

/-- Where elements are related whichever comes first, those at different places are related. -/
theorem rel_of_pairwise {α : Type} {R : α → α → Prop} {as : List α} {i j : Nat} {a b : α}
    (hsymm : ∀ a b, R a b → R b a) (h : as.Pairwise R) (hij : i ≠ j) (ha : as[i]? = some a)
    (hb : as[j]? = some b) : R a b := by
  obtain ⟨hi, rfl⟩ := List.getElem?_eq_some_iff.1 ha
  obtain ⟨hj, rfl⟩ := List.getElem?_eq_some_iff.1 hb
  rcases Nat.lt_or_gt_of_ne hij with hlt | hlt
  · exact List.pairwise_iff_getElem.1 h i j hi hj hlt
  · exact hsymm _ _ (List.pairwise_iff_getElem.1 h j i hj hi hlt)

/-- **Routing** makes exactly the edges conditional that should be, and each of them has a key: the
one that was there, or one of its own. -/
theorem isRouting_normalize (nodes : List Node) (pinned : List String) (edges : List Edge) :
    IsRouting nodes pinned edges (normalize nodes edges pinned) := by
  have hlength : (normalize nodes edges pinned).length = edges.length :=
    forall₂_route.length_eq.symm
  have hrouted : ∀ {i e e'}, IsAt edges (normalize nodes edges pinned) i e e' →
      Routed (isBranching nodes edges pinned) e e' :=
    fun h => routed_of_mem_zip_route (List.mem_of_getElem? h.getElem?_zip)
  have hpairs : ∀ {i j e e' f f'}, i ≠ j → IsAt edges (normalize nodes edges pinned) i e e' →
      IsAt edges (normalize nodes edges pinned) j f f' → SharesOnlyExplicit (e, e') (f, f') :=
    fun hij h h' => rel_of_pairwise (fun _ _ hpair => hpair.symm)
      (pairwise_route (areTaken_reservedKeys _ _)) hij h.getElem?_zip h'.getElem?_zip
  constructor
  case length_eq => exact hlength
  case id_eq => exact fun i e e' h => (hrouted h).id_eq
  case source_eq => exact fun i e e' h => (hrouted h).source_eq
  case target_eq => exact fun i e e' h => (hrouted h).target_eq
  case conditional_iff =>
    exact fun i e e' h => (hrouted h).kind_eq_conditional_iff.trans isBranching_iff
  case normal => exact fun i e e' h => (hrouted h).kind_eq_normal_iff.1
  case kept => exact fun i e e' h => (hrouted h).routeKey_eq
  case own =>
    intro i e e' h hkind hdefault
    obtain ⟨key, hkey, hne⟩ := (hrouted h).exists_key hkind
    refine ⟨key, hkey, hne, fun j f' hij hf' _ hsource hshared => ?_⟩
    have hj : j < edges.length := by
      rw [← hlength]
      exact (List.getElem?_eq_some_iff.1 hf').1
    have hf : IsAt edges (normalize nodes edges pinned) j edges[j] f' :=
      ⟨List.getElem?_eq_getElem hj, hf'⟩
    exact (hpairs hij hf h key hsource hshared hkey).2 hdefault
  case shared =>
    intro i j e e' f f' hij he hf hkind hkind' hsource hshared
    obtain ⟨key, hkey, -⟩ := (hrouted he).exists_key hkind
    obtain ⟨hexplicit, hexplicit'⟩ := hpairs hij he hf key hsource hkey (hshared ▸ hkey)
    have hkept : e'.routeKey = some (explicitKey e) := (hrouted he).routeKey_eq hkind hexplicit
    have hkept' : f'.routeKey = some (explicitKey f) := (hrouted hf).routeKey_eq hkind' hexplicit'
    rw [← hshared, hkept, Option.some.injEq] at hkept'
    exact ⟨hexplicit, hkept'.symm, hkept⟩

end AgentFlow.Routing
