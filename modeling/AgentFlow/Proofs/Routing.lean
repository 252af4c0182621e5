import AgentFlow.Routing
import AgentFlow.Proofs.Graph.Basic
import AgentFlow.Proofs.Lists
import AgentFlow.Proofs.Text.Fresh

/-!
# What routing does to each edge

Routing keeps every edge in its place, with its identifier and its ends, and makes it plain or gives
it a key (`forall₂_route`). The edges that routing leaves alone are those whose kinds are right and
whose keys are trimmed (`route_eq_self_iff`), and all keys that routing gives are trimmed exactly if
no default key ends in a blank (`forall_isTrimmed_route_iff`).
-/

namespace AgentFlow.Routing

open Text

/-! ## Default keys -/

def idStart (edgeId : Option String) : String :=
  String.ofList ((edgeId.getD "").toList.take idLength)

/-- The default key is made of an identifier whose start ends in a blank. -/
def IsLoose (label edgeId : Option String) : Prop :=
  slug (label.getD "") = "" ∧ endsBlank (idStart edgeId) = true

instance (label edgeId : Option String) : Decidable (IsLoose label edgeId) :=
  inferInstanceAs (Decidable (_ ∧ _))

/-- The default key, by what it is made of: the label, the identifier, or else the place. -/
theorem defaultKey_eq (label edgeId : Option String) (place : Int) :
    defaultKey label edgeId place =
      if slug (label.getD "") ≠ "" then slug (label.getD "")
      else if edgeId.getD "" ≠ "" then "route_" ++ idStart edgeId
      else "route_" ++ place.repr := rfl

/-- Only an identifier that is empty or missing has an empty start. -/
theorem idStart_eq_empty_iff {edgeId : Option String} :
    idStart edgeId = "" ↔ edgeId.getD "" = "" := by
  rw [idStart, ← String.toList_inj, String.toList_ofList]
  constructor
  · intro h
    rcases List.take_eq_nil_iff.1 h with h0 | h0
    · exact absurd h0 (by decide)
    · exact String.toList_injective h0
  · intro h
    rw [h]
    rfl

/-- A default key starts with a letter or a digit, never with a blank. -/
theorem exists_head_defaultKey (label edgeId : Option String) (place : Int) :
    ∃ c, (defaultKey label edgeId place).toList.head? = some c ∧ isBlank c = false := by
  have hroute : ∀ s : String, ("route_" ++ s).toList.head? = some 'r' := fun s => by
    rw [String.toList_append]
    rfl
  rw [defaultKey_eq]
  split
  · next hslug =>
    cases hcs : (slug (label.getD "")).toList with
    | nil => exact absurd (String.toList_injective hcs) hslug
    | cons c rest =>
      have hc : c ∈ (slug (label.getD "")).toList := by simp [hcs]
      exact ⟨c, rfl, not_isBlank_of_mem_slug hc⟩
  · -- Made of an identifier or of a place, it starts with the word for a route.
    split <;> exact ⟨'r', hroute _, rfl⟩

theorem endsBlank_slug (s : String) : endsBlank (slug s) = false := by
  rw [endsBlank]
  cases hlast : (slug s).toList.getLast? with
  | none => rfl
  | some c => exact not_isBlank_of_mem_slug (List.mem_of_getLast? hlast)

/-- The end of a text decides, if it is not empty. -/
theorem endsBlank_append (s t : String) (ht : t ≠ "") : endsBlank (s ++ t) = endsBlank t := by
  have hne : t.toList ≠ [] := fun h => ht (String.toList_injective h)
  rw [endsBlank, endsBlank, String.toList_append, List.getLast?_append_of_ne_nil _ hne]

theorem endsBlank_append_int (s : String) (place : Int) : endsBlank (s ++ place.repr) = false := by
  cases place with
  | ofNat n => exact endsBlank_append_repr s n
  | negSucc n =>
    show endsBlank (s ++ ("-" ++ (n + 1).repr)) = false
    rw [← String.append_assoc]
    exact endsBlank_append_repr _ _

/-- A default key is trimmed unless an identifier whose start ends in a blank went into it. -/
theorem isTrimmed_defaultKey_iff {label edgeId : Option String} {place : Int} :
    IsTrimmed (defaultKey label edgeId place) ↔ ¬ IsLoose label edgeId := by
  obtain ⟨c, hhead, hc⟩ := exists_head_defaultKey label edgeId place
  rw [isTrimmed_iff_endsBlank hhead hc, IsLoose, defaultKey_eq]
  -- A slug has no blanks and a number none either, so all hangs on the start of the identifier.
  by_cases hslug : slug (label.getD "") = ""
  · by_cases hid : edgeId.getD "" = ""
    · have hstart : idStart edgeId = "" := idStart_eq_empty_iff.2 hid
      simp [hslug, hid, hstart, endsBlank_append_int, show endsBlank "" = false from rfl]
    · have hstart : idStart edgeId ≠ "" := fun h => hid (idStart_eq_empty_iff.1 h)
      simp [hslug, hid, endsBlank_append _ _ hstart]
  · simp [hslug, endsBlank_slug]

/-! ## The key that an edge is given -/

/-- A number at its end keeps a name trimmed. -/
theorem isTrimmed_fresh {base : String} (used : List String) {c : Char}
    (hhead : base.toList.head? = some c) (hc : isBlank c = false) (h : IsTrimmed base) :
    IsTrimmed (fresh "_" base used) := by
  rcases fresh_eq "_" base used with heq | ⟨n, heq⟩
  · rwa [heq]
  · rw [heq, numbered]
    have hnumbered : (base ++ "_" ++ n.repr).toList.head? = some c := by
      rw [String.toList_append, String.toList_append, List.head?_append, List.head?_append, hhead]
      rfl
    exact (isTrimmed_iff_endsBlank hnumbered hc).2 (endsBlank_append_repr _ n)

/-- A default key is never blank. -/
theorem trim_defaultKey_ne_empty (label edgeId : Option String) (place : Int)
    (used : List String) : trim (fresh "_" (defaultKey label edgeId place) used) ≠ "" := by
  obtain ⟨c, hhead, hc⟩ := exists_head_defaultKey label edgeId place
  intro h
  have hmem : c ∈ (fresh "_" (defaultKey label edgeId place) used).toList :=
    mem_fresh used (List.mem_of_head? hhead)
  rw [trim_eq_empty_iff.1 h c hmem] at hc
  exact absurd hc (by simp)

@[simp] theorem isTrimmed_explicitKey (e : Edge) : IsTrimmed (explicitKey e) := isTrimmed_trim _

/-- As long as the taken keys are trimmed, a fresh default key is trimmed exactly if it is not
loose: no taken key can make a number be added to a loose one. -/
theorem isTrimmed_fresh_defaultKey_iff {label edgeId : Option String} {place : Int}
    {used : List String} (hused : ∀ key ∈ used, IsTrimmed key) :
    IsTrimmed (fresh "_" (defaultKey label edgeId place) used) ↔ ¬ IsLoose label edgeId := by
  have hdefault : IsTrimmed (defaultKey label edgeId place) ↔ ¬ IsLoose label edgeId :=
    isTrimmed_defaultKey_iff
  rw [← hdefault]
  constructor
  · intro h
    -- The taken keys are trimmed and this one is not, so it is free as it is and gets no number.
    by_contra hloose
    rw [fresh_of_notMem fun hmem => hloose (hused _ hmem)] at h
    exact hloose h
  · obtain ⟨c, hhead, hc⟩ := exists_head_defaultKey label edgeId place
    exact isTrimmed_fresh used hhead hc

/-! ## One edge -/

variable {branching : Edge → Bool} {label? : String → Option String} {place : Nat}
  {taken : List (String × String)} {edges : List Edge}

/-- What becomes of an edge. -/
inductive Routed (branching : Edge → Bool) (e : Edge) : Edge → Prop where
  | plain (h : branching e = false) : Routed branching e (plainEdge e)
  | keyed {key : String} (h : branching e = true) (hkey : trim key ≠ "")
      (hkept : explicitKey e ≠ "" → key = explicitKey e) : Routed branching e (keyedEdge e key)

namespace Routed

variable {e e' : Edge} (h : Routed branching e e')

include h

/-! ### What is read off a routed edge -/

theorem id_eq : e'.id = e.id := by cases h <;> rfl

theorem source_eq : e'.source = e.source := by cases h <;> rfl

theorem target_eq : e'.target = e.target := by cases h <;> rfl

/-- The edge is conditional afterwards exactly if it branches. -/
theorem kind_eq_conditional_iff : e'.kind = .conditional ↔ branching e = true := by
  cases h with
  | plain he => simp [plainEdge, he]
  | keyed he => simp [keyedEdge, he]

/-- Just the edges that are normal afterwards have no key. -/
theorem kind_eq_normal_iff : e'.kind = .normal ↔ e'.routeKey = none := by
  cases h with
  | plain => simp [plainEdge]
  | keyed => simp [keyedEdge]

/-- A conditional edge has a key, and one that is not blank. -/
theorem exists_key (hkind : e'.kind = .conditional) :
    ∃ key, e'.routeKey = some key ∧ trim key ≠ "" := by
  cases h with
  | plain => cases hkind
  | keyed _ hkey => exact ⟨_, rfl, hkey⟩

/-- Of the test for branching only its value at the edge matters. -/
theorem congr {branching' : Edge → Bool} (heq : branching e = branching' e) :
    Routed branching' e e' := by
  cases h with
  | plain he => exact .plain (heq ▸ he)
  | keyed he hkey hkept => exact .keyed (heq ▸ he) hkey hkept

/-- A key that is there is kept, trimmed. -/
theorem routeKey_eq (hkind : e'.kind = .conditional) (hkey : explicitKey e ≠ "") :
    e'.routeKey = some (explicitKey e) := by
  cases h with
  | plain => cases hkind
  | keyed _ _ hkept => rw [keyedEdge, hkept hkey]

theorem explicitKey_eq (he : branching e = true) (hkey : explicitKey e ≠ "") :
    explicitKey e' = explicitKey e := by
  rw [explicitKey, h.routeKey_eq (h.kind_eq_conditional_iff.2 he) hkey, Option.getD_some]
  exact isTrimmed_explicitKey e

end Routed

/-- Routing goes edge by edge and makes each plain or gives it a key. -/
theorem forall₂_route :
    List.Forall₂ (Routed branching) edges (route branching label? place taken edges) := by
  induction edges generalizing place taken with
  | nil => exact .nil
  | cons e rest ih =>
    rw [route]
    split
    · next he =>
      dsimp only
      split
      · next hkey =>
        -- A key that is there has been trimmed, so trimming it again leaves it.
        refine .cons (.keyed he ?_ fun _ => rfl) ih
        rw [explicitKey, trim_trim]
        exact hkey
      · next hkey =>
        exact .cons (.keyed he (trim_defaultKey_ne_empty _ _ _ _) fun h => absurd h hkey) ih
    · next he => exact .cons (.plain (by simpa using he)) ih

/-- A routed edge, and the edge that it was. -/
theorem exists_of_mem_route {e' : Edge} (h : e' ∈ route branching label? place taken edges) :
    ∃ e ∈ edges, Routed branching e e' :=
  exists_left_of_forall₂ forall₂_route h

/-! ## Edges that routing leaves alone -/

def IsSettled (branching : Edge → Bool) (e : Edge) : Prop :=
  if branching e then
    e.kind = .conditional ∧ ∃ key, e.routeKey = some key ∧ key ≠ "" ∧ IsTrimmed key
  else e.kind = .normal ∧ e.routeKey = none

theorem plainEdge_eq_self_iff {e : Edge} :
    plainEdge e = e ↔ e.kind = .normal ∧ e.routeKey = none := by
  cases e
  simp [plainEdge, eq_comm]

theorem keyedEdge_eq_self_iff {e : Edge} {key : String} :
    keyedEdge e key = e ↔ e.kind = .conditional ∧ e.routeKey = some key := by
  cases e
  simp [keyedEdge, eq_comm]

/-- Routing leaves a list of edges alone exactly if it leaves each of them alone. -/
theorem route_eq_self_iff :
    route branching label? place taken edges = edges ↔ ∀ e ∈ edges, IsSettled branching e := by
  induction edges generalizing place taken with
  | nil => simp [route]
  | cons e rest ih =>
    rw [route, List.forall_mem_cons, IsSettled]
    split
    · next he =>
      dsimp only
      split
      · next hkey =>
        rw [List.cons.injEq, ih, keyedEdge_eq_self_iff]
        refine and_congr_left' (and_congr_right fun _ => ⟨fun h => ?_, ?_⟩)
        · -- The key that is kept is the edge's own, so it was there and trimmed.
          exact ⟨_, h, hkey, isTrimmed_explicitKey e⟩
        · rintro ⟨key, hroute, -, htrim⟩
          rw [hroute, explicitKey, hroute, Option.getD_some, htrim]
      · next hkey =>
        rw [List.cons.injEq, ih, keyedEdge_eq_self_iff]
        refine and_congr_left' (and_congr_right fun _ => ⟨fun h => ?_, ?_⟩)
        · -- A default key is not blank, so it would have been explicit.
          refine absurd ?_ hkey
          rw [explicitKey, h, Option.getD_some]
          exact trim_defaultKey_ne_empty _ _ _ _
        · rintro ⟨key, hroute, hne, htrim⟩
          refine absurd ?_ hkey
          rw [explicitKey, hroute, Option.getD_some, htrim]
          exact hne
    · rw [List.cons.injEq, ih, plainEdge_eq_self_iff]

theorem IsSettled.kind_eq_conditional_iff {e : Edge} (h : IsSettled branching e) :
    e.kind = .conditional ↔ branching e = true := by
  rw [IsSettled] at h
  split at h
  · next he => exact iff_of_true h.1 he
  · next he => exact iff_of_false (by simp [h.1]) he

/-- Said by the kind: it is as it should be, and just the conditional edges have keys. -/
theorem isSettled_iff {e : Edge} : IsSettled branching e ↔
    (e.kind = .conditional ↔ branching e = true) ∧
      (e.kind = .conditional → ∃ key, e.routeKey = some key ∧ key ≠ "" ∧ IsTrimmed key) ∧
      (e.kind = .normal → e.routeKey = none) := by
  rw [IsSettled]
  cases e.kind <;> cases branching e <;> simp

/-- The key of a branching edge that is left alone is its explicit key. -/
theorem IsSettled.explicitKey_eq {e : Edge} (h : IsSettled branching e)
    (he : branching e = true) : explicitKey e ≠ "" ∧ e.routeKey = some (explicitKey e) := by
  rw [IsSettled, if_pos he] at h
  obtain ⟨-, key, hkey, hne, htrim⟩ := h
  rw [explicitKey, hkey, Option.getD_some, htrim]
  exact ⟨hne, rfl⟩

/-- Whatever routing makes of an edge that it leaves alone is that edge. -/
theorem Routed.eq_of_isSettled {e e' : Edge} (h : Routed branching e e')
    (hsettled : IsSettled branching e) : e' = e := by
  cases h with
  | plain he =>
    rw [IsSettled, he] at hsettled
    exact plainEdge_eq_self_iff.2 (by simpa using hsettled)
  | keyed he _ hkept =>
    obtain ⟨hne, hkey⟩ := hsettled.explicitKey_eq he
    rw [IsSettled, if_pos he] at hsettled
    exact keyedEdge_eq_self_iff.2 ⟨hsettled.1, by rw [hkept hne]; exact hkey⟩

/-- The same for a list of edges. -/
theorem eq_of_forall₂_routed {edges' : List Edge}
    (hedges : ∀ e ∈ edges, IsSettled branching e)
    (h : List.Forall₂ (Routed branching) edges edges') : edges' = edges := by
  have heq : List.Forall₂ (fun e e' => e' = e) edges edges' :=
    forall₂_of_mem (fun e he e' hrouted => hrouted.eq_of_isSettled (hedges e he)) h
  have hmap := map_eq_of_forall₂ (f := id) (g := id) (fun _ _ h => h) heq
  rwa [List.map_id, List.map_id] at hmap

/-! ## Trimmed keys -/

/-- The edge has no key, or one that trimming leaves alone. -/
def HasTrimmedKey (e : Edge) : Prop := ∀ key, e.routeKey = some key → IsTrimmed key

/-- The edge is given a default key, and a loose one. -/
def GetsLooseKey (branching : Edge → Bool) (label? : String → Option String) (e : Edge) : Prop :=
  branching e = true ∧ explicitKey e = "" ∧ IsLoose (label? e.target) e.id

/-- All keys that routing gives are trimmed exactly if no edge is given a loose one, provided that
those taken already are trimmed. -/
theorem forall_isTrimmed_route_iff (htaken : ∀ entry ∈ taken, IsTrimmed entry.2) :
    (∀ e ∈ route branching label? place taken edges, HasTrimmedKey e) ↔
      ∀ e ∈ edges, ¬ GetsLooseKey branching label? e := by
  induction edges generalizing place taken with
  | nil => simp [route]
  | cons e rest ih =>
    rw [route, List.forall_mem_cons]
    split
    · next he =>
      dsimp only
      split
      · next hkey =>
        rw [List.forall_mem_cons, ih htaken]
        simp [HasTrimmedKey, keyedEdge, GetsLooseKey, hkey]
      · next hkey =>
        rw [ne_eq, Decidable.not_not] at hkey
        have hused : ∀ key ∈ keysAt taken e.source, IsTrimmed key := by
          intro key hmem
          obtain ⟨entry, hentry, rfl⟩ := List.mem_map.1 hmem
          exact htaken entry (List.mem_filter.1 hentry).1
        have hfresh : IsTrimmed (fresh "_" (defaultKey (label? e.target) e.id (place + 1))
            (keysAt taken e.source)) ↔ ¬ IsLoose (label? e.target) e.id :=
          isTrimmed_fresh_defaultKey_iff hused
        have hhead : HasTrimmedKey (keyedEdge e (fresh "_"
            (defaultKey (label? e.target) e.id (place + 1)) (keysAt taken e.source))) ↔
            ¬ GetsLooseKey branching label? e := by
          simp [HasTrimmedKey, keyedEdge, GetsLooseKey, he, hkey, hfresh]
        rw [List.forall_mem_cons, hhead]
        -- If the head's key is trimmed, it is one more trimmed key among the taken ones.
        refine and_congr_right fun hloose => ih ?_
        intro entry hentry
        rcases List.mem_cons.1 hentry with rfl | hentry
        · exact hhead.2 hloose _ rfl
        · exact htaken entry hentry
    · next he =>
      rw [List.forall_mem_cons, ih htaken]
      simp [HasTrimmedKey, plainEdge, GetsLooseKey, he]

/-- The keys that are reserved at the start are explicit ones, which are trimmed. -/
theorem isTrimmed_of_mem_reservedKeys {entry : String × String}
    (h : entry ∈ reservedKeys branching edges) : IsTrimmed entry.2 := by
  obtain ⟨e, -, rfl⟩ := List.mem_map.1 h
  exact isTrimmed_explicitKey e

/-! ## Whole graphs -/

variable {nodes : List Node} {pinned : List String}

/-- The label of the node with an identifier. -/
def labelOf? (nodes : List Node) (id : String) : Option String :=
  (lastNode? nodes id).map (·.label)

/-- Routing keeps the identifiers and the ends of the edges. -/
theorem map_normalize_eq {α : Type} {f : Edge → α}
    (hf : ∀ e e', e'.id = e.id → e'.source = e.source → e'.target = e.target → f e' = f e) :
    (normalize nodes edges pinned).map f = edges.map f :=
  map_eq_of_forall₂ (fun e e' h => hf e e' h.id_eq h.source_eq h.target_eq) forall₂_route

/-- Routing keeps the sources, in order. -/
@[simp] theorem map_source_normalize :
    (normalize nodes edges pinned).map (·.source) = edges.map (·.source) :=
  map_normalize_eq fun _ _ _ hsource _ => hsource

/-- Routing keeps the out-degrees. -/
@[simp] theorem outDegree_normalize (id : String) :
    outDegree (normalize nodes edges pinned) id = outDegree edges id :=
  outDegree_congr map_source_normalize id

/-- For an edge that is not pinned, the number of edges out of its source decides. -/
theorem isBranching_of_unpinned {e : Edge} (h : ∀ id ∈ pinned, e.id ≠ some id) :
    isBranching nodes edges pinned e = decide (1 < outDegree edges e.source) := by
  have hunpinned : e.id.any (· ∈ pinned) = false := by
    refine Bool.eq_false_iff.2 fun hany => ?_
    rw [Option.any_eq_true] at hany
    obtain ⟨id, hid, hmem⟩ := hany
    exact h id (of_decide_eq_true hmem) hid
  rw [isBranching, hunpinned]
  simp

/-- Where no edge is pinned, the number of edges out of its source decides. -/
@[simp] theorem isBranching_nil (e : Edge) :
    isBranching nodes edges [] e = decide (1 < outDegree edges e.source) :=
  isBranching_of_unpinned fun _ h => absurd h List.not_mem_nil

end AgentFlow.Routing
