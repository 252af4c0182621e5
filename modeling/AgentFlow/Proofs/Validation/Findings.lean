import AgentFlow.Proofs.Validation.ExportReady

/-!
# Which findings there are

For the kinds of finding that are about a part of a graph by itself, when validation reports one:
`exists_duplicateNode_iff` and its companions. A kind comes from one check only
(`code_of_mem_checkEmpty` and the lemmas after it), so the other checks do not matter.
-/

namespace AgentFlow

variable {nodes : List Node} {edges : List Edge} {entryId : Option String} {issue : Issue}

/-! ## The kinds that a check reports -/

namespace Validation

theorem code_of_mem_checkEmpty (h : issue ∈ checkEmpty nodes) : issue.code = "empty_graph" := by
  rw [checkEmpty] at h
  split at h <;> simp_all [Issue.code]

theorem code_of_mem_checkDuplicates (h : issue ∈ checkDuplicates nodes) :
    issue.code = "duplicate_node" := by
  obtain ⟨entry, -, rfl⟩ := List.mem_map.1 h
  rfl

/-- This check reports two kinds, and each tells which end is loose. -/
theorem code_of_mem_checkEnds {e : Edge} (h : issue ∈ checkEnds nodes e) :
    issue.code = "dangling_source" ∧ e.source ∉ nodeIds nodes ∨
      issue.code = "dangling_target" ∧ e.target ∉ nodeIds nodes := by
  rw [checkEnds, List.mem_append] at h
  rcases h with h | h <;> split at h
  · simp at h
  · next hend => exact Or.inl ⟨by rw [List.mem_singleton.1 h]; rfl, hend⟩
  · simp at h
  · next hend => exact Or.inr ⟨by rw [List.mem_singleton.1 h]; rfl, hend⟩

theorem code_of_mem_checkAgents (h : issue ∈ checkAgents nodes) :
    issue.code = "missing_agent_role" := by
  obtain ⟨n, -, rfl⟩ := List.mem_map.1 h
  rfl

/-- The kinds of finding about the entry and what it reaches. -/
def entryCodes : List String :=
  ["unknown_entry", "no_entry", "ambiguous_entry", "isolated_node", "unreachable_node"]

/-- This check reports what is wrong with the entry, or else what it does not reach. -/
theorem code_of_mem_checkEntry (h : issue ∈ checkEntry nodes edges entryId) :
    issue.code ∈ entryCodes := by
  rw [checkEntry] at h
  split at h
  · simp at h
  · split at h
    · next start _ =>
      obtain ⟨n, -, rfl⟩ := List.mem_map.1 h
      split <;> simp [Issue.code, entryCodes]
    · next reason hreason =>
      rw [List.mem_singleton.1 h]
      cases entryId with
      | some id =>
        simp only [entry] at hreason
        split at hreason
        · cases hreason
        · cases hreason
          simp [Issue.code, entryCodes]
      | none =>
        simp only [entry] at hreason
        split at hreason <;> cases hreason <;> simp [Issue.code, entryCodes]

theorem code_of_mem_checkKeysPresent (h : issue ∈ checkKeysPresent nodes edges) :
    issue.code = "missing_route_key" := by
  obtain ⟨e, -, rfl⟩ := List.mem_map.1 h
  rfl

theorem code_of_mem_checkKeysDistinct (h : issue ∈ checkKeysDistinct nodes edges) :
    issue.code = "duplicate_route_key" := by
  obtain ⟨source, -, h⟩ := List.mem_flatMap.1 h
  obtain ⟨entry, -, rfl⟩ := List.mem_map.1 h
  rfl

end Validation

/-! ## When a kind is reported -/

open Validation

/-- A finding comes from one of the seven checks. -/
theorem mem_validate_iff : issue ∈ validate nodes edges entryId ↔
    issue ∈ checkEmpty nodes ∨ issue ∈ checkDuplicates nodes ∨
      (∃ e ∈ edges, issue ∈ checkEnds nodes e) ∨ issue ∈ checkAgents nodes ∨
      issue ∈ checkEntry nodes edges entryId ∨ issue ∈ checkKeysPresent nodes edges ∨
      issue ∈ checkKeysDistinct nodes edges := by
  simp only [validate, List.mem_append, List.mem_flatMap, or_assoc]

/-- What a finding of some kinds goes back to. -/
structure Cause (nodes : List Node) (edges : List Edge) (issue : Issue) : Prop where
  duplicateNode : issue.code = "duplicate_node" → issue ∈ checkDuplicates nodes
  danglingSource : issue.code = "dangling_source" → ∃ e ∈ edges, e.source ∉ nodeIds nodes
  danglingTarget : issue.code = "dangling_target" → ∃ e ∈ edges, e.target ∉ nodeIds nodes
  missingAgentRole : issue.code = "missing_agent_role" → issue ∈ checkAgents nodes
  missingRouteKey : issue.code = "missing_route_key" → issue ∈ checkKeysPresent nodes edges
  duplicateRouteKey : issue.code = "duplicate_route_key" → issue ∈ checkKeysDistinct nodes edges

/-- Every finding goes back to what its kind says. -/
theorem cause_of_mem_validate (h : issue ∈ validate nodes edges entryId) :
    Cause nodes edges issue := by
  -- A check reports kinds of its own, and the claims on all other kinds are empty for it.
  rcases mem_validate_iff.1 h with h | h | ⟨e, he, h⟩ | h | h | h | h
  · constructor <;> simp [code_of_mem_checkEmpty h]
  · constructor <;> simp [code_of_mem_checkDuplicates h, h]
  · rcases code_of_mem_checkEnds h with ⟨hcode, hend⟩ | ⟨hcode, hend⟩
    · constructor <;> simp only [hcode, String.reduceEq, false_implies, true_implies]
      exact ⟨e, he, hend⟩
    · constructor <;> simp only [hcode, String.reduceEq, false_implies, true_implies]
      exact ⟨e, he, hend⟩
  · constructor <;> simp [code_of_mem_checkAgents h, h]
  · have hcode := code_of_mem_checkEntry h
    simp only [entryCodes, List.mem_cons, List.not_mem_nil, or_false] at hcode
    rcases hcode with hcode | hcode | hcode | hcode | hcode <;> constructor <;> simp [hcode]
  · constructor <;> simp [code_of_mem_checkKeysPresent h, h]
  · constructor <;> simp [code_of_mem_checkKeysDistinct h, h]

/-- A kind that one check reports, and no other, is reported if that check finds something. -/
theorem exists_code_iff_ne_nil {found : List Issue} {code : String}
    (hfound : ∀ issue ∈ found, issue ∈ validate nodes edges entryId ∧ issue.code = code)
    (hcause : ∀ issue ∈ validate nodes edges entryId, issue.code = code → issue ∈ found) :
    (∃ issue ∈ validate nodes edges entryId, issue.code = code) ↔ found ≠ [] := by
  constructor
  · rintro ⟨issue, hissue, hcode⟩
    exact List.ne_nil_of_mem (hcause issue hissue hcode)
  · intro hne
    obtain ⟨issue, hissue⟩ := List.exists_mem_of_ne_nil found hne
    exact ⟨issue, hfound issue hissue⟩

/-- A repeated identifier is reported exactly if there is one. -/
theorem exists_duplicateNode_iff :
    (∃ issue ∈ validate nodes edges entryId, issue.code = "duplicate_node") ↔
      ¬ (nodeIds nodes).Nodup := by
  rw [← checkDuplicates_eq_nil_iff, ← ne_eq]
  exact exists_code_iff_ne_nil
    (fun issue h => ⟨mem_validate_iff.2 (by simp [h]), code_of_mem_checkDuplicates h⟩)
    fun issue h => (cause_of_mem_validate h).duplicateNode

/-- A loose source is reported exactly if there is one. -/
theorem exists_danglingSource_iff :
    (∃ issue ∈ validate nodes edges entryId, issue.code = "dangling_source") ↔
      ∃ e ∈ edges, e.source ∉ nodeIds nodes := by
  constructor
  · rintro ⟨issue, hissue, hcode⟩
    exact (cause_of_mem_validate hissue).danglingSource hcode
  · rintro ⟨e, he, hend⟩
    refine ⟨.danglingSource e, mem_validate_iff.2 (Or.inr (Or.inr (Or.inl ⟨e, he, ?_⟩))), rfl⟩
    rw [checkEnds, if_neg hend]
    simp

theorem exists_danglingTarget_iff :
    (∃ issue ∈ validate nodes edges entryId, issue.code = "dangling_target") ↔
      ∃ e ∈ edges, e.target ∉ nodeIds nodes := by
  constructor
  · rintro ⟨issue, hissue, hcode⟩
    exact (cause_of_mem_validate hissue).danglingTarget hcode
  · rintro ⟨e, he, hend⟩
    refine ⟨.danglingTarget e, mem_validate_iff.2 (Or.inr (Or.inr (Or.inl ⟨e, he, ?_⟩))), rfl⟩
    rw [checkEnds, if_neg hend]
    simp

/-- A node that is no agent is reported exactly if there is one. -/
theorem exists_missingAgentRole_iff :
    (∃ issue ∈ validate nodes edges entryId, issue.code = "missing_agent_role") ↔
      ∃ n ∈ nodes, Role.agent ∉ n.roles := by
  have hcheck : (∃ n ∈ nodes, Role.agent ∉ n.roles) ↔ checkAgents nodes ≠ [] := by
    rw [ne_eq, checkAgents_eq_nil_iff]
    simp
  rw [hcheck]
  exact exists_code_iff_ne_nil
    (fun issue h => ⟨mem_validate_iff.2 (by simp [h]), code_of_mem_checkAgents h⟩)
    fun issue h => (cause_of_mem_validate h).missingAgentRole

/-- A missing key is reported exactly if a conditional edge has none. -/
theorem exists_missingRouteKey_iff :
    (∃ issue ∈ validate nodes edges entryId, issue.code = "missing_route_key") ↔
      ∃ e ∈ edges, e.isConditional ∧ Routing.explicitKey e = "" := by
  have hcheck : (∃ e ∈ edges, e.isConditional ∧ Routing.explicitKey e = "") ↔
      checkKeysPresent nodes edges ≠ [] := by
    rw [ne_eq, checkKeysPresent_eq_nil_iff]
    simp
  rw [hcheck]
  exact exists_code_iff_ne_nil
    (fun issue h => ⟨mem_validate_iff.2 (by simp [h]), code_of_mem_checkKeysPresent h⟩)
    fun issue h => (cause_of_mem_validate h).missingRouteKey

/-- Validation reports that a source has a route key twice. -/
def ReportsDuplicateKey (nodes : List Node) (edges : List Edge) (entryId : Option String)
    (source : String) : Prop :=
  ∃ issue ∈ validate nodes edges entryId,
    issue.code = "duplicate_route_key" ∧ issue.nodeId = some source

/-- A repeated key is reported at a source exactly if two of its keys are the same. -/
theorem reportsDuplicateKey_iff {source : String} :
    ReportsDuplicateKey nodes edges entryId source ↔ ¬ (keysFrom edges source).Nodup := by
  rw [← repeated_eq_nil_iff, ← ne_eq]
  constructor
  · rintro ⟨issue, hissue, hcode, hid⟩
    have hmem := (cause_of_mem_validate hissue).duplicateRouteKey hcode
    obtain ⟨source', -, hmem⟩ := List.mem_flatMap.1 hmem
    obtain ⟨entry, hentry, rfl⟩ := List.mem_map.1 hmem
    -- The finding names the source that it is about.
    obtain rfl : source' = source := Option.some.inj hid
    exact List.ne_nil_of_mem hentry
  · intro hne
    obtain ⟨entry, hentry⟩ := List.exists_mem_of_ne_nil _ hne
    have hkey : entry.1 ∈ keysFrom edges source := mem_of_mem_repeated hentry
    refine ⟨.duplicateRouteKey source (sourceName nodes source) entry.1 entry.2, ?_, rfl, rfl⟩
    have hmem : Issue.duplicateRouteKey source (sourceName nodes source) entry.1 entry.2 ∈
        checkKeysDistinct nodes edges :=
      List.mem_flatMap.2 ⟨source, mem_firstSeen_of_mem_keysFrom hkey, List.mem_map_of_mem hentry⟩
    exact mem_validate_iff.2 (by simp [hmem])

/-! ## Structural corruption -/

/-- The kinds of finding that tell of structural corruption. -/
def corruptionCodes : List String :=
  ["duplicate_node", "dangling_source", "dangling_target", "missing_agent_role"]

def IsCorrupt (nodes : List Node) (edges : List Edge) (entryId : Option String) : Prop :=
  ∃ issue ∈ validate nodes edges entryId, issue.code ∈ corruptionCodes

/-- **Validation finds structural corruption exactly in graphs that are not intact.** -/
theorem isCorrupt_iff : IsCorrupt nodes edges entryId ↔ ¬ Intact nodes edges := by
  have hkinds : IsCorrupt nodes edges entryId ↔
      (∃ issue ∈ validate nodes edges entryId, issue.code = "duplicate_node") ∨
        (∃ issue ∈ validate nodes edges entryId, issue.code = "dangling_source") ∨
        (∃ issue ∈ validate nodes edges entryId, issue.code = "dangling_target") ∨
        ∃ issue ∈ validate nodes edges entryId, issue.code = "missing_agent_role" := by
    simp only [IsCorrupt, corruptionCodes, List.mem_cons, List.not_mem_nil, or_false,
      and_or_left, exists_or]
  rw [hkinds, exists_duplicateNode_iff, exists_danglingSource_iff, exists_danglingTarget_iff,
    exists_missingAgentRole_iff]
  constructor
  · rintro (hids | ⟨e, he, hend⟩ | ⟨e, he, hend⟩ | ⟨n, hn, hagent⟩) h
    · exact hids h.nodup_ids
    · exact hend (h.ends e he).1
    · exact hend (h.ends e he).2
    · exact hagent (h.agents n hn)
  · intro h
    -- If none of the four kinds is reported, the three conditions hold.
    by_contra hnone
    simp only [not_or, not_exists, not_and, Decidable.not_not] at hnone
    obtain ⟨hids, hsources, htargets, hagents⟩ := hnone
    exact h ⟨hids, fun e he => ⟨hsources e he, htargets e he⟩, hagents⟩

end AgentFlow
