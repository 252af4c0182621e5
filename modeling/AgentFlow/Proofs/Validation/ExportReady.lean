import AgentFlow.Validation
import AgentFlow.Proofs.Graph.Basic
import AgentFlow.Proofs.Reachability

/-!
# What validation asks of a graph

A graph that can be exported, said without the checks: `ExportReady`. Validation finds nothing
exactly of such a graph (`validate_eq_nil_iff`). Each check has a lemma that says when it finds
nothing; the one on reachability rests on the search finding all that paths lead to.
-/

namespace AgentFlow

/-! ## Graphs that can be exported -/

/-- An edge leads from one identifier to another. -/
def Linked (edges : List Edge) (a b : String) : Prop :=
  ∃ e ∈ edges, e.source = a ∧ e.target = b

/-- A path of zero or more edges. -/
def EdgePath (edges : List Edge) : String → String → Prop := Relation.ReflTransGen (Linked edges)

/-- No edge leads into a node. -/
def IsSource (edges : List Edge) (n : Node) : Prop := ∀ e ∈ edges, e.target ≠ n.id

/-- Where a flow starts: at the node that was asked for, or else at the one node that no edge leads
into. -/
inductive StartsAt (nodes : List Node) (edges : List Edge) : Option String → String → Prop where
  | chosen {id : String} (hid : id ∈ nodeIds nodes) : StartsAt nodes edges (some id) id
  | sole {n : Node} (hn : n ∈ nodes) (honly : ∀ m ∈ nodes, IsSource edges m ↔ m = n) :
      StartsAt nodes edges none n.id

/-- The graph can be exported, `entryId` being the entry that was asked for. -/
structure ExportReady (nodes : List Node) (edges : List Edge) (entryId : Option String) : Prop
    extends Intact nodes edges where
  nonempty : nodes ≠ []
  reached : ∃ start, StartsAt nodes edges entryId start ∧ ∀ n ∈ nodes, EdgePath edges start n.id
  keyed : ∀ e ∈ edges, e.kind = .conditional → ∃ key, e.routeKey = some key ∧ Text.trim key ≠ ""
  keysApart : edges.Pairwise fun e f => e.kind = .conditional → f.kind = .conditional →
    e.source = f.source → e.routeKey.map Text.trim ≠ f.routeKey.map Text.trim

namespace Validation

variable {nodes : List Node} {edges : List Edge} {entryId : Option String}

theorem checkEmpty_eq_nil_iff : checkEmpty nodes = [] ↔ nodes ≠ [] := by
  cases nodes <;> simp [checkEmpty]

theorem checkDuplicates_eq_nil_iff : checkDuplicates nodes = [] ↔ (nodeIds nodes).Nodup := by
  rw [checkDuplicates, List.map_eq_nil_iff, repeated_eq_nil_iff]

/-- The ends of an edge are in order if both are nodes. -/
theorem checkEnds_eq_nil_iff {e : Edge} :
    checkEnds nodes e = [] ↔ e.source ∈ nodeIds nodes ∧ e.target ∈ nodeIds nodes := by
  rw [checkEnds, List.append_eq_nil_iff]
  refine and_congr ?_ ?_ <;> split <;> simp_all

theorem checkAgents_eq_nil_iff : checkAgents nodes = [] ↔ ∀ n ∈ nodes, Role.agent ∈ n.roles := by
  simp [checkAgents]

/-! ## The entry and what it reaches -/

/-- The search goes along the edges of the graph. -/
theorem path_arrows_iff {a b : String} : Path (arrows edges) a b ↔ EdgePath edges a b := by
  have hstep : (fun x y => (x, y) ∈ arrows edges) = Linked edges := by
    funext x y
    simp [arrows, Linked]
  rw [Path, EdgePath, hstep]

/-- Everything is in reach exactly if paths lead to all nodes. -/
theorem checkReachable_eq_nil_iff {entry : Node} :
    checkReachable nodes edges entry = [] ↔ ∀ n ∈ nodes, EdgePath edges entry.id n.id := by
  simp only [checkReachable, List.map_eq_nil_iff, List.filter_eq_nil_iff, decide_eq_true_eq,
    mem_reachable_iff, path_arrows_iff, Classical.not_not]

theorem mem_entryCandidates {n : Node} :
    n ∈ entryCandidates nodes edges ↔ n ∈ nodes ∧ IsSource edges n := by
  simp [entryCandidates, IsSource]

/-- Where no node is there twice, there is one candidate exactly if one node has no edge into it. -/
theorem entryCandidates_eq_singleton_iff (hnodes : nodes.Nodup) {n : Node} :
    entryCandidates nodes edges = [n] ↔ n ∈ nodes ∧ ∀ m ∈ nodes, IsSource edges m ↔ m = n := by
  constructor
  · intro h
    have hmem : ∀ m, m ∈ nodes ∧ IsSource edges m ↔ m = n := fun m => by
      rw [← mem_entryCandidates, h, List.mem_singleton]
    refine ⟨((hmem n).2 rfl).1, fun m hm => ⟨fun hs => (hmem m).1 ⟨hm, hs⟩, fun heq => ?_⟩⟩
    exact ((hmem m).2 heq).2
  · rintro ⟨hn, honly⟩
    have hall : ∀ m ∈ entryCandidates nodes edges, m = n := fun m hm =>
      (honly m (mem_entryCandidates.1 hm).1).1 (mem_entryCandidates.1 hm).2
    have hn' : n ∈ entryCandidates nodes edges := mem_entryCandidates.2 ⟨hn, (honly n hn).2 rfl⟩
    have hdup : (entryCandidates nodes edges).Nodup := hnodes.filter _
    -- Copies of one node, of which there are neither two nor none.
    rw [List.eq_replicate_of_mem hall] at hdup hn' ⊢
    have hlen := List.nodup_replicate.1 hdup
    have hpos := List.length_pos_of_mem hn'
    rw [List.length_replicate] at hpos
    rw [show (entryCandidates nodes edges).length = 1 by omega]
    rfl

/-- Without a chosen entry, there has to be just one candidate. -/
theorem entry_none_eq_ok_iff {n : Node} :
    entry nodes edges none = .ok n ↔ entryCandidates nodes edges = [n] := by
  simp only [entry]
  split
  · next h => simp [h]
  · next m h => simp [h]
  · next h =>
    constructor
    · exact fun hok => nomatch hok
    · exact fun heq => absurd heq (h n)

/-- Where identifiers are distinct, the entry that is found is where the flow starts. -/
theorem exists_entry_eq_ok_iff (hids : (nodeIds nodes).Nodup) {start : String} :
    (∃ n, entry nodes edges entryId = .ok n ∧ n.id = start) ↔
      StartsAt nodes edges entryId start := by
  cases entryId with
  | some id =>
    constructor
    · rintro ⟨n, hn, rfl⟩
      -- The chosen identifier is looked up among the nodes.
      simp only [entry] at hn
      split at hn
      · next m hm =>
        obtain ⟨hmem, rfl⟩ := mem_of_lastNode? hm
        cases hn
        exact .chosen (mem_nodeIds.2 ⟨n, hmem, rfl⟩)
      · cases hn
    · rintro ⟨hid⟩
      simp only [entry]
      split
      · next m hm => exact ⟨m, rfl, (mem_of_lastNode? hm).2⟩
      · next hm => exact absurd hid (lastNode?_eq_none_iff.1 hm)
  | none =>
    -- Distinct identifiers make the nodes distinct, so that one candidate is one node.
    have hnodes : nodes.Nodup := List.Nodup.of_map _ hids
    constructor
    · rintro ⟨n, hn, rfl⟩
      obtain ⟨hmem, honly⟩ :=
        (entryCandidates_eq_singleton_iff hnodes).1 (entry_none_eq_ok_iff.1 hn)
      exact .sole hmem honly
    · rintro ⟨⟩
      next n hn honly =>
      have hsole := (entryCandidates_eq_singleton_iff hnodes).2 ⟨hn, honly⟩
      exact ⟨n, entry_none_eq_ok_iff.2 hsole, rfl⟩

/-- The entry is in order if there is one and it reaches every node. -/
theorem checkEntry_eq_nil_iff (hids : (nodeIds nodes).Nodup) (hne : nodes ≠ []) :
    checkEntry nodes edges entryId = [] ↔
      ∃ start, StartsAt nodes edges entryId start ∧ ∀ n ∈ nodes, EdgePath edges start n.id := by
  have hempty : nodes.isEmpty = false := by simpa using hne
  rw [checkEntry, hempty]
  simp only [Bool.false_eq_true, ↓reduceIte]
  constructor
  · intro h
    -- If no entry is found, that alone is a finding.
    split at h
    · next n hn =>
      exact ⟨n.id, (exists_entry_eq_ok_iff hids).1 ⟨n, hn, rfl⟩, checkReachable_eq_nil_iff.1 h⟩
    · cases h
  · rintro ⟨start, hstart, hreach⟩
    obtain ⟨n, hn, rfl⟩ := (exists_entry_eq_ok_iff hids).2 hstart
    rw [hn]
    exact checkReachable_eq_nil_iff.2 hreach

/-! ## Route keys -/

/-- No key is missing if every conditional edge has one. -/
theorem checkKeysPresent_eq_nil_iff :
    checkKeysPresent nodes edges = [] ↔
      ∀ e ∈ edges, e.isConditional → Routing.explicitKey e ≠ "" := by
  simp [checkKeysPresent]

/-- The keys that are compared at a source are those of its conditional edges that have one. -/
theorem keysFrom_nodup_iff {source : String} :
    (keysFrom edges source).Nodup ↔ edges.Pairwise fun e f =>
      (e.isConditional ∧ e.source = source ∧ Routing.explicitKey e ≠ "") →
      (f.isConditional ∧ f.source = source ∧ Routing.explicitKey f ≠ "") →
      Routing.explicitKey e ≠ Routing.explicitKey f := by
  rw [keysFrom, List.Nodup, List.pairwise_map, List.pairwise_filter]
  simp [and_assoc]

/-- A source of an edge with a key is one of those whose keys are compared. -/
theorem mem_firstSeen_of_mem_keysFrom {source key : String} (h : key ∈ keysFrom edges source) :
    source ∈ firstSeen ((edges.filter fun e =>
      e.isConditional && Routing.explicitKey e ≠ "").map (·.source)) := by
  obtain ⟨e, he, -⟩ := List.mem_map.1 h
  obtain ⟨hmem, hkey⟩ := List.mem_filter.1 he
  simp only [Bool.and_eq_true, decide_eq_true_eq] at hkey
  obtain ⟨⟨hcond, rfl⟩, hne⟩ := hkey
  exact mem_firstSeen.2 (List.mem_map_of_mem (List.mem_filter.2 ⟨hmem, by simp [hcond, hne]⟩))

/-- No key is repeated if the keys of every source are distinct. -/
theorem checkKeysDistinct_eq_nil_iff :
    checkKeysDistinct nodes edges = [] ↔ ∀ source, (keysFrom edges source).Nodup := by
  simp only [checkKeysDistinct, List.flatMap_eq_nil_iff, List.map_eq_nil_iff, repeated_eq_nil_iff]
  refine ⟨fun h source => ?_, fun h source _ => h source⟩
  cases hkeys : keysFrom edges source with
  | nil => exact List.nodup_nil
  | cons key rest =>
    rw [← hkeys]
    exact h source (mem_firstSeen_of_mem_keysFrom (hkeys ▸ List.mem_cons_self))

/-- An edge has a key if a text is left of it once it is trimmed. -/
theorem explicitKey_ne_empty_iff {e : Edge} :
    Routing.explicitKey e ≠ "" ↔ ∃ key, e.routeKey = some key ∧ Text.trim key ≠ "" := by
  rw [Routing.explicitKey]
  -- A key that is missing counts as an empty one.
  cases e.routeKey with
  | none => simp [show Text.trim "" = "" from rfl]
  | some key => simp

theorem routeKey_map_trim {e : Edge} (h : Routing.explicitKey e ≠ "") :
    e.routeKey.map Text.trim = some (Routing.explicitKey e) := by
  obtain ⟨key, hkey, -⟩ := explicitKey_ne_empty_iff.1 h
  rw [Routing.explicitKey, hkey]
  rfl

/-- Where every conditional edge has a key, the keys of each source have no repetition exactly if
no two conditional edges with one source have the same key. -/
theorem keysFrom_nodup_iff_keysApart
    (hkeyed : ∀ e ∈ edges, e.isConditional → Routing.explicitKey e ≠ "") :
    (∀ source, (keysFrom edges source).Nodup) ↔ edges.Pairwise fun e f =>
      e.kind = .conditional → f.kind = .conditional → e.source = f.source →
        e.routeKey.map Text.trim ≠ f.routeKey.map Text.trim := by
  simp only [keysFrom_nodup_iff, List.pairwise_iff_getElem]
  -- What the checks ask of an edge besides being conditional, every conditional edge has.
  have hkey : ∀ i (hi : i < edges.length), edges[i].kind = .conditional →
      edges[i].isConditional = true ∧ Routing.explicitKey edges[i] ≠ "" := by
    intro i hi hkind
    have hcond : edges[i].isConditional = true := by simp [Edge.isConditional, hkind]
    exact ⟨hcond, hkeyed _ (List.getElem_mem hi) hcond⟩
  constructor
  · intro h i j hi hj hij hei hej hsource heq
    obtain ⟨hci, hki⟩ := hkey i hi hei
    obtain ⟨hcj, hkj⟩ := hkey j hj hej
    rw [routeKey_map_trim hki, routeKey_map_trim hkj, Option.some.injEq] at heq
    exact h edges[j].source i j hi hj hij ⟨hci, hsource, hki⟩ ⟨hcj, rfl, hkj⟩ heq
  · rintro h source i j hi hj hij ⟨hci, hsi, hki⟩ ⟨hcj, hsj, hkj⟩ heq
    refine h i j hi hj hij (by simpa [Edge.isConditional] using hci)
      (by simpa [Edge.isConditional] using hcj) (hsi.trans hsj.symm) ?_
    rw [routeKey_map_trim hki, routeKey_map_trim hkj, heq]

end Validation

/-! ## Soundness and completeness -/

variable {nodes : List Node} {edges : List Edge} {entryId : Option String}

open Validation in
/-- Validation misses nothing. -/
theorem ExportReady.of_validate (h : validate nodes edges entryId = []) :
    ExportReady nodes edges entryId := by
  simp only [validate, List.append_eq_nil_iff, checkEmpty_eq_nil_iff, checkDuplicates_eq_nil_iff,
    List.flatMap_eq_nil_iff, checkEnds_eq_nil_iff, checkAgents_eq_nil_iff,
    checkKeysPresent_eq_nil_iff, checkKeysDistinct_eq_nil_iff] at h
  obtain ⟨⟨⟨⟨⟨⟨hne, hids⟩, hends⟩, hagents⟩, hentry⟩, hkeyed⟩, hdistinct⟩ := h
  exact {
    nodup_ids := hids
    ends := hends
    agents := hagents
    nonempty := hne
    reached := (checkEntry_eq_nil_iff hids hne).1 hentry
    keyed := fun e he hkind =>
      explicitKey_ne_empty_iff.1 (hkeyed e he (by simp [Edge.isConditional, hkind]))
    keysApart := (keysFrom_nodup_iff_keysApart hkeyed).1 hdistinct }

open Validation in
/-- Validation reports nothing without a reason. -/
theorem ExportReady.validate_eq_nil (h : ExportReady nodes edges entryId) :
    validate nodes edges entryId = [] := by
  have hkeyed : ∀ e ∈ edges, e.isConditional → Routing.explicitKey e ≠ "" := fun e he hcond =>
    explicitKey_ne_empty_iff.2 (h.keyed e he (by simpa [Edge.isConditional] using hcond))
  simp only [validate, List.append_eq_nil_iff, checkEmpty_eq_nil_iff, checkDuplicates_eq_nil_iff,
    List.flatMap_eq_nil_iff, checkEnds_eq_nil_iff, checkAgents_eq_nil_iff,
    checkKeysPresent_eq_nil_iff, checkKeysDistinct_eq_nil_iff]
  exact ⟨⟨⟨⟨⟨⟨h.nonempty, h.nodup_ids⟩, h.ends⟩, h.agents⟩,
    (checkEntry_eq_nil_iff h.nodup_ids h.nonempty).2 h.reached⟩, hkeyed⟩,
    (keysFrom_nodup_iff_keysApart hkeyed).2 h.keysApart⟩

/-- **Validation is sound and complete**: it finds nothing exactly of a graph that can be
exported. -/
theorem validate_eq_nil_iff (nodes : List Node) (edges : List Edge) (entryId : Option String) :
    validate nodes edges entryId = [] ↔ ExportReady nodes edges entryId :=
  ⟨ExportReady.of_validate, ExportReady.validate_eq_nil⟩

end AgentFlow
