import AgentFlow.Http.Service
import AgentFlow.Proofs.Json.Parts
import AgentFlow.Proofs.Schema.Breaks

/-!
# The status of a response

An endpoint that takes a graph answers every body with a status of its own, 200, 400 or 422, unless
the service breaks down over it (`BreaksDown`): reading the graph breaks off, an answer would have
to repeat a value that cannot be sent, or the normalized graph itself cannot be.
-/

namespace AgentFlow

/-! ## Which graphs can be sent -/

/-- The metadata of the node can be sent. -/
def Node.CanBeSent (n : Node) : Prop :=
  ∀ field ∈ n.metadata.getD [], field.2.nesting ≤ metadataNesting ∧ field.2.isSound = true

theorem isSound_toJson_coordinate (c : Coordinate) : c.toJson.isSound = true := by
  cases c <;> rfl

theorem isSound_positionJson (place : Option Position) : (positionJson place).isSound = true := by
  cases place with
  | none => rfl
  | some place => simp [positionJson, isSound_toJson_coordinate]

/-- Metadata is sound if all its values are. -/
theorem isSound_metadataJson (metadata : Option (List (String × Json))) :
    (metadataJson metadata).isSound = (metadata.getD []).all (·.2.isSound) := by
  cases metadata with
  | none => rfl
  | some fields => simp [metadataJson]

/-- Of a node, only the metadata can be unsound. -/
theorem Node.isSound_toJson (n : Node) :
    n.toJson.isSound = (n.metadata.getD []).all (·.2.isSound) := by
  simp [Node.toJson, isSound_positionJson, isSound_metadataJson]

theorem Edge.isSound_toJson (e : Edge) : e.toJson.isSound = true := by simp [Edge.toJson]

theorem Graph.isSound_toJson (g : Graph) :
    g.toJson.isSound = g.nodes.all fun n => (n.metadata.getD []).all (·.2.isSound) := by
  simp [Graph.toJson, Function.comp_def, Node.isSound_toJson, Edge.isSound_toJson]

theorem Graph.canonical_metadata (g : Graph) (pinned : List String) :
    (g.canonical pinned).nodes.map (·.metadata) = g.nodes.map (·.metadata) := by
  show (inferRoles g.nodes _).map (·.metadata) = _
  rw [inferRoles, List.map_map]
  rfl

/-- Whether all nodes can be sent depends on their metadata only. -/
theorem Graph.canBeSent_canonical_iff (g : Graph) (pinned : List String) :
    (∀ n ∈ (g.canonical pinned).nodes, n.CanBeSent) ↔ ∀ n ∈ g.nodes, n.CanBeSent := by
  have hmetadata : ∀ nodes : List Node, (∀ n ∈ nodes, n.CanBeSent) ↔
      ∀ metadata ∈ nodes.map (·.metadata), ∀ field ∈ metadata.getD [],
        field.2.nesting ≤ metadataNesting ∧ field.2.isSound = true := by
    intro nodes
    rw [List.forall_mem_map]
    exact Iff.rfl
  rw [hmetadata, hmetadata, canonical_metadata]

namespace Http

open Schema (HasScalarRoles)

/-! ## Bodies -/

/-- An answer with the faults of a value would have to repeat a part of it that cannot be sent. -/
def HasUnsendableFault (v : Json) : Prop :=
  ∃ f ∈ (Schema.graph .request v).allFaults, (innermost v f.path).isSendable = false

theorem read_ne_unspeakable (body : Body) : body.read ≠ .error .unspeakable := by
  cases body with
  | absent => exact fun h => nomatch h
  | value v => exact fun h => nomatch h
  | text s =>
    rw [Body.read]
    split
    · exact fun h => nomatch h
    · split
      · exact fun h => nomatch h
      · split <;> exact fun h => nomatch h

/-- A body is unspeakable if it is read and its value cannot be answered for. -/
theorem graph_eq_unspeakable_iff {body : Body} : body.graph = .error .unspeakable ↔
    ∃ v, body.read = .ok v ∧ (HasScalarRoles v ∨ HasUnsendableFault v) := by
  rw [Body.graph]
  cases hread : body.read with
  | error reason =>
    have hne : reason ≠ .unspeakable := fun h => read_ne_unspeakable body (h ▸ hread)
    exact ⟨fun h => absurd (Except.error.inj h) hne, fun ⟨_, h, _⟩ => nomatch h⟩
  | ok v =>
    have hex : (∃ v', Except.ok (ε := BodyError) v = .ok v' ∧
        (HasScalarRoles v' ∨ HasUnsendableFault v')) ↔ HasScalarRoles v ∨ HasUnsendableFault v :=
      ⟨fun ⟨_, hv, h⟩ => Except.ok.inj hv ▸ h, fun h => ⟨v, rfl, h⟩⟩
    rw [hex, ← Schema.breaks_graph_iff .request, HasUnsendableFault]
    simp only [bind, Except.bind]
    cases Schema.graph .request v with
    | ok g => simp [Schema.Outcome.allFaults]
    | unlistable kind => simp
    | faults first more =>
      dsimp only
      split
      · next hall =>
        rw [List.all_eq_true] at hall
        simpa [Schema.Outcome.allFaults] using hall
      · next hall =>
        rw [List.all_eq_true] at hall
        simpa [Schema.Outcome.allFaults, Classical.or_iff_not_imp_left] using hall

/-! ## Responses -/

/-- The service copes with a request. -/
def Response.IsProper (r : Response) : Prop := r.status = 200 ∨ r.status = 400 ∨ r.status = 422

theorem not_isProper_breakdown : ¬ breakdown.IsProper := by simp [Response.IsProper, breakdown]

theorem isProper_answer (v : Json) : (answer v).IsProper := .inl rfl

/-- A body that is rejected gets a status of its own, unless the reason cannot be sent. -/
theorem isProper_response_iff {reason : BodyError} :
    reason.response.IsProper ↔ reason ≠ .unspeakable := by
  cases reason <;>
    simp [BodyError.response, Response.IsProper, rejection, problem, breakdown]

/-- An endpoint copes with a body if the graph in it can be read or rejected, and its own work is
proper. -/
theorem isProper_withGraph_iff {body : Body} {work : Graph → Response} :
    (withGraph body work).IsProper ↔ body.graph ≠ .error .unspeakable ∧
      ∀ g, body.graph = .ok g → (work (g.canonical [])).IsProper := by
  rw [withGraph]
  cases body.graph with
  | ok g => simp
  | error reason => simp [isProper_response_iff]

/-- Every way to generate a program ends in a status of its own. -/
theorem isProper_program (g : Graph) (target : String) (entryId : Option String) :
    (program g target entryId).IsProper := by
  rw [program]
  split
  · exact .inr (.inl rfl)
  · split
    · exact .inr (.inr rfl)
    · exact isProper_answer _

/-- A graph is answered with exactly if all its nodes can be sent. -/
theorem isProper_graphResponse_iff (g : Graph) :
    (graphResponse g).IsProper ↔ ∀ n ∈ g.nodes, n.CanBeSent := by
  -- A dump fails at metadata that is nested too deeply, and sending it at what is unsound.
  have hcan : (∀ n ∈ g.nodes, n.CanBeSent) ↔
      g.nodes.all Node.isDumpable = true ∧ g.toJson.isSound = true := by
    simp [Node.CanBeSent, Node.isDumpable, Graph.isSound_toJson, forall_and]
  rw [hcan, graphResponse, Graph.dump]
  by_cases hdump : g.nodes.all Node.isDumpable = true
  · by_cases hsound : g.toJson.isSound = true
    · simp [hdump, hsound, isProper_answer]
    · simp [hdump, hsound, not_isProper_breakdown]
  · simp [hdump, not_isProper_breakdown]

/-! ## Endpoints -/

def graphEndpoints : List (String × Endpoint) := [
  ("/api/graphs/normalize", .normalize),
  ("/api/graphs/validate", .validate),
  ("/api/graphs/generate", .generate)]

theorem validate_mem_graphEndpoints :
    ("/api/graphs/validate", Endpoint.validate) ∈ graphEndpoints := by simp [graphEndpoints]

theorem generate_mem_graphEndpoints :
    ("/api/graphs/generate", Endpoint.generate) ∈ graphEndpoints := by simp [graphEndpoints]

/-- The service breaks down over a body. -/
def BreaksDown (e : Endpoint) (body : Body) : Prop :=
  (∃ v, body.read = .ok v ∧ (HasScalarRoles v ∨ HasUnsendableFault v)) ∨
    e = .normalize ∧ ∃ g, body.graph = .ok g ∧ ∃ n ∈ g.nodes, ¬ n.CanBeSent

/-- **An endpoint copes with a body exactly if the service does not break down over it.** -/
theorem isProper_respond_iff {path : String} {e : Endpoint} (he : (path, e) ∈ graphEndpoints)
    (body : Body) (query : List (String × String)) :
    (e.respond body query).IsProper ↔ ¬ BreaksDown e body := by
  rw [BreaksDown, ← graph_eq_unspeakable_iff, not_or]
  simp only [graphEndpoints, List.mem_cons, Prod.mk.injEq, List.not_mem_nil, or_false] at he
  obtain ⟨-, rfl⟩ | ⟨-, rfl⟩ | ⟨-, rfl⟩ := he
  · rw [Endpoint.respond, isProper_withGraph_iff]
    simp only [isProper_graphResponse_iff, Graph.canBeSent_canonical_iff, true_and, not_exists,
      not_and, not_not]
  · rw [Endpoint.respond, isProper_withGraph_iff]
    exact and_congr_right fun _ => by simp [isProper_answer]
  · rw [Endpoint.respond, isProper_withGraph_iff]
    exact and_congr_right fun _ => by simp [isProper_program]

/-- The paths of the endpoints hold no query, -/
theorem ofText_graphEndpoint : ∀ entry ∈ graphEndpoints,
    Address.ofText entry.1 = ⟨entry.1, []⟩ := by decide +kernel

/-- lead to them, -/
theorem endpoint?_graphEndpoint : ∀ entry ∈ graphEndpoints, endpoint? entry.1 = some entry.2 := by
  decide +kernel

/-- and take the same method. -/
theorem method_graphEndpoint : ∀ entry ∈ graphEndpoints, entry.2.method = "POST".toUpper := by
  decide +kernel

/-- A request to the path of an endpoint reaches it. -/
theorem respond_graphEndpoint {path : String} {e : Endpoint} (he : (path, e) ∈ graphEndpoints)
    (body : Body) (query : List (String × String)) :
    respond ⟨"POST", path, query, body⟩ = e.respond body query.reverse := by
  have haddress : Address.ofText path = ⟨path, []⟩ := ofText_graphEndpoint (path, e) he
  have hendpoint : endpoint? path = some e := endpoint?_graphEndpoint (path, e) he
  have hmethod : e.method = "POST".toUpper := method_graphEndpoint (path, e) he
  unfold respond
  dsimp only
  rw [haddress]
  dsimp only
  rw [hendpoint]
  dsimp only
  rw [if_pos hmethod, List.nil_append]

end Http

end AgentFlow
