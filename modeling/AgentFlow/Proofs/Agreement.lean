import AgentFlow.Proofs.FrontEnds
import AgentFlow.Proofs.Skeleton.Generation

/-!
# The front ends agree

The web service and the command line work on graphs by themselves. Where both find the same graph in
a text, they come to the same findings and to the same program, and they fail for the same reasons
(`frontEnds_agree`). The service has no part in the log of a command, so the command must be able to
set it up.
-/

namespace AgentFlow

open CommandLine (AsksForLevel Command Ending FileState Report launch parseCommand tidyPath)

/-- A field of the value that a response carries. -/
def Http.Response.field? (r : Http.Response) (name : String) : Option Json :=
  match r.content with
  | .json v => v.get? name
  | .text _ => none

/-! ## What it is to agree -/

/-- Both front ends find the graph in the text. -/
structure IsTextOf (text : String) (g : Graph) : Prop where
  file : ∃ v, Json.read CommandLine.fileLimits text = .ok v ∧ Schema.graph .text v = .ok g
  body : (Http.Body.text text).graph = .ok g

/-- A report and a response say the same about the findings; a report in JSON lists what the
response lists. -/
structure AgreeOnFindings (asJson : Bool) (report : Report) (response : Http.Response) : Prop where
  answered : response.status = 200
  ready_iff : report.exit = 0 ↔ response.field? "export_ready" = some (.bool true)
  unready_iff : report.exit = 1 ↔ response.field? "export_ready" = some (.bool false)
  issues : asJson = true → ∃ issues, response.field? "issues" = some (.arr issues) ∧
    report.output = (Json.arr issues).indented Text.literal 0 ++ "\n"

/-- A report and a response hold the same program of a graph, or fail for the same reason. -/
structure AgreeOnProgram (g : Graph) (target : String) (report : Report)
    (response : Http.Response) : Prop where
  done_iff : report.exit = 0 ↔ response.status = 200
  code : response.status = 200 → response.field? "code" = some (.str report.output)
  failed_iff : report.exit = 1 ↔ response.status = 400 ∨ response.status = 422
  unknown_iff : response.status = 400 ↔ ¬ Target.IsAlias target
  corrupt_iff : response.status = 422 ↔ Target.IsAlias target ∧ ¬ Intact g.nodes g.edges
  reason : report.exit = 1 → ∃ reason, response.field? "detail" = some (.str reason) ∧
    report.complaint = some ("Error: " ++ reason)

/-! ## The two ways to the graph -/

/-- A command works on the graph of the text in its file. -/
theorem CommandLine.withGraph_eq {text : String} {g : Graph} (htext : IsTextOf text g)
    {files : String → FileState} {file : String} (hfile : files (tidyPath file) = .text text)
    (work : Graph → Ending) :
    CommandLine.withGraph files file work = .ok (work (g.canonical [])) := by
  obtain ⟨v, hv, hg⟩ := htext.file
  have hload : CommandLine.loadGraph text = .ok (.ok (g.canonical [])) := by
    rw [CommandLine.loadGraph, hv]
    dsimp only
    rw [hg]
  rw [CommandLine.withGraph, hfile]
  dsimp only
  rw [hload]

/-- The program leaves the report of its command behind, if the log is set up. -/
theorem CommandLine.launch_eq {files : String → FileState} {args : List String} {command : Command}
    {ending : Ending} (hlog : AsksForLevel args) (hargs : parseCommand args = .ok command)
    (hends : command.run files = .ok ending) : launch files args = .ok ending.report := by
  rw [launch_of_asksForLevel hlog, run, hargs]
  dsimp only
  rw [hends]
  rfl

/-- An endpoint works on the graph of the text in the body. -/
theorem Http.withGraph_eq {text : String} {g : Graph} (htext : IsTextOf text g)
    (work : Graph → Http.Response) :
    Http.withGraph (.text text) work = work (g.canonical []) := by
  rw [Http.withGraph, htext.body]

/-! ## The two kinds of work -/

/-- On a graph, both kinds of work report the same findings. -/
theorem agreeOnFindings (g : Graph) (entry : Option String) (asJson : Bool) :
    AgreeOnFindings asJson (CommandLine.runValidate entry asJson g).report
      (Http.answer (Http.validationReport g entry)) where
  answered := rfl
  ready_iff := by
    show (if (validate g.nodes g.edges entry).isEmpty then 0 else 1) = 0 ↔
      some (Json.bool (validate g.nodes g.edges entry).isEmpty) = _
    cases (validate g.nodes g.edges entry).isEmpty <;> simp
  unready_iff := by
    show (if (validate g.nodes g.edges entry).isEmpty then 0 else 1) = 1 ↔
      some (Json.bool (validate g.nodes g.edges entry).isEmpty) = _
    cases (validate g.nodes g.edges entry).isEmpty <;> simp
  issues := by
    rintro rfl
    exact ⟨_, rfl, rfl⟩

/-- The service rejects a target that it does not know, -/
theorem Http.program_of_named?_eq_none {g : Graph} {target : String} {entry : Option String}
    (h : Target.named? target = none) :
    Http.program g target entry =
      Http.problem 400 (GenerateError.unknownTarget (.str target)).message := by
  rw [Http.program, Target.ofJson_str, h]

/-- and otherwise answers with the program, or with the reason why there is none. -/
theorem Http.program_of_named?_eq_some {g : Graph} {target : String} {entry : Option String}
    {t : Target} (h : Target.named? target = some t) :
    Http.program g target entry =
      match plan g.nodes g.edges entry with
      | .error reason => Http.problem 422 reason.message
      | .ok p => Http.answer (.obj [
          ("target", .str t.name), ("code", .str (p.program t (some g.name)))]) := by
  cases hplan : plan g.nodes g.edges entry <;>
    simp only [Http.program, Target.ofJson_str, h, hplan]

/-- Without a name of its own, the project is named like the graph. -/
theorem CommandLine.runGenerate_none (g : Graph) (target : String) (entry : Option String) :
    CommandLine.runGenerate target entry none g =
      match generate (.str target) g.nodes g.edges entry (some g.name) with
      | .ok code => .done code true
      | .error reason => .failed reason.message := by
  cases hcode : generate (.str target) g.nodes g.edges entry (some g.name) <;>
    simp only [CommandLine.runGenerate, Option.getD_none, if_pos, hcode]

/-- On a graph, both kinds of work give the same program or fail for the same reason. -/
theorem agreeOnProgram (g : Graph) (target : String) (entry : Option String) :
    AgreeOnProgram g target (CommandLine.runGenerate target entry none g).report
      (Http.program g target entry) := by
  have hintact : (∃ p, plan g.nodes g.edges entry = .ok p) ↔ Intact g.nodes g.edges :=
    Plan.exists_plan_iff entry
  rw [CommandLine.runGenerate_none]
  cases hnamed : Target.named? target with
  | none =>
    rw [generate_of_named?_eq_none hnamed, Http.program_of_named?_eq_none hnamed]
    have halias := Target.named?_eq_none_iff.1 hnamed
    exact {
      done_iff := by simp [Ending.report, Http.problem]
      code := by simp [Http.problem]
      failed_iff := by simp [Ending.report, Http.problem]
      unknown_iff := by simp [halias, Http.problem]
      corrupt_iff := by simp [halias, Http.problem]
      reason := fun _ => ⟨_, rfl, rfl⟩ }
  | some t =>
    rw [generate_of_named?_eq_some hnamed, Http.program_of_named?_eq_some hnamed]
    have halias : Target.IsAlias target := Target.isAlias_of_named?_eq_some hnamed
    -- The target is known, so the plan decides.
    cases hplan : plan g.nodes g.edges entry with
    | error reason =>
      have hcorrupt : ¬ Intact g.nodes g.edges := by simp [← hintact, hplan]
      exact {
        done_iff := by simp [Ending.report, Http.problem]
        code := by simp [Http.problem]
        failed_iff := by simp [Ending.report, Http.problem]
        unknown_iff := by simp [halias, Http.problem]
        corrupt_iff := by simp [halias, hcorrupt, Http.problem]
        reason := fun _ => ⟨_, rfl, rfl⟩ }
    | ok p =>
      have hwhole : Intact g.nodes g.edges := hintact.1 ⟨p, hplan⟩
      exact {
        done_iff := by simp [Ending.report, Http.answer]
        code := fun _ => rfl
        failed_iff := by simp [Ending.report, Http.answer]
        unknown_iff := by simp [halias, Http.answer]
        corrupt_iff := by simp [hwhole, Http.answer]
        reason := by simp [Ending.report] }

/-! ## Both front ends -/

/-- **The front ends agree.** A command finds a text in its file, and a request has it in its body.
If both read the same graph and the same entry is asked for, then they agree on the findings, and
for every target on the program. What the command asks for as the level of its log, if it does, has
to be one. -/
theorem frontEnds_agree {text : String} {g : Graph} (htext : IsTextOf text g)
    {files : String → FileState} {file : String} (hfile : files (tidyPath file) = .text text)
    {query : List (String × String)} {entry : Option String}
    (hentry : query.reverse.lookup "entry_id" = entry) :
    (∀ args asJson, AsksForLevel args → parseCommand args = .ok (.validate file entry asJson) →
      ∃ report, launch files args = .ok report ∧ AgreeOnFindings asJson report
        (Http.respond ⟨"POST", "/api/graphs/validate", query, .text text⟩)) ∧
    ∀ args target, AsksForLevel args → parseCommand args = .ok (.generate file target entry none) →
      (query.reverse.lookup "target").getD Target.python.name = target →
      ∃ report, launch files args = .ok report ∧ AgreeOnProgram (g.canonical []) target report
        (Http.respond ⟨"POST", "/api/graphs/generate", query, .text text⟩) := by
  subst hentry
  constructor
  · intro args asJson hlog hargs
    refine ⟨_, CommandLine.launch_eq hlog hargs (CommandLine.withGraph_eq htext hfile _), ?_⟩
    rw [Http.respond_graphEndpoint Http.validate_mem_graphEndpoints, Http.Endpoint.respond,
      Http.withGraph_eq htext]
    exact agreeOnFindings _ _ _
  · rintro args target hlog hargs rfl
    refine ⟨_, CommandLine.launch_eq hlog hargs (CommandLine.withGraph_eq htext hfile _), ?_⟩
    rw [Http.respond_graphEndpoint Http.generate_mem_graphEndpoints, Http.Endpoint.respond,
      Http.withGraph_eq htext]
    exact agreeOnProgram _ _ _

/-- A graph as text; its edge leads to a node that is not there. -/
def looseEdgeText : String := "\x7b\"nodes\":[\x7b\"id\":\"a\"\x7d],\"edges\":" ++
  "[\x7b\"id\":\"e\",\"source\":\"a\",\"target\":\"b\"\x7d]\x7d"

def looseEdgeGraph : Graph where
  nodes := [{ id := "a" }]
  edges := [{ id := some "e", source := "a", target := "b" }]

/-- Both front ends read this graph. -/
theorem isTextOf_looseEdge : IsTextOf looseEdgeText looseEdgeGraph where
  file := by
    refine ⟨.obj [("nodes", .arr [.obj [("id", .str "a")]]),
      ("edges", .arr [.obj [("id", .str "e"), ("source", .str "a"), ("target", .str "b")]])],
      eq_ok_of_toOption_eq_some (by decide +kernel), by decide +kernel⟩
  body := eq_ok_of_toOption_eq_some (by decide +kernel)

def looseEdgeFiles (_ : String) : FileState := .text looseEdgeText

/-- The front ends agree on the graph with the loose edge, here for a command that asks for a level
of the log and for one that does not. -/
theorem frontEnds_agree_looseEdge :
    (∃ report, launch looseEdgeFiles ["--log-level", "info", "validate", "g.json", "--json"] =
        .ok report ∧ AgreeOnFindings true report
        (Http.respond ⟨"POST", "/api/graphs/validate", [("target", "ts")], .text looseEdgeText⟩)) ∧
    ∃ report, launch looseEdgeFiles ["generate", "g.json", "--target", "ts"] = .ok report ∧
      AgreeOnProgram (looseEdgeGraph.canonical []) "ts" report
        (Http.respond
          ⟨"POST", "/api/graphs/generate", [("target", "ts")], .text looseEdgeText⟩) := by
  have hvalidate : parseCommand ["--log-level", "info", "validate", "g.json", "--json"] =
      .ok (.validate "g.json" none true) := eq_ok_of_toOption_eq_some (by decide +kernel)
  have hgenerate : parseCommand ["generate", "g.json", "--target", "ts"] =
      .ok (.generate "g.json" "ts" none none) := eq_ok_of_toOption_eq_some (by decide +kernel)
  have hfile : looseEdgeFiles (tidyPath "g.json") = .text looseEdgeText := rfl
  have hentry : [("target", "ts")].reverse.lookup "entry_id" = none := rfl
  have hlevel : AsksForLevel ["--log-level", "info", "validate", "g.json", "--json"] :=
    AsksForLevel.of_asked (show CommandLine.askedLogLevel _ = some "info" by decide +kernel)
      (by decide +kernel)
  have hnone : AsksForLevel ["generate", "g.json", "--target", "ts"] :=
    AsksForLevel.of_none (by decide +kernel)
  obtain ⟨hfindings, hprogram⟩ := frontEnds_agree isTextOf_looseEdge hfile hentry
  exact ⟨hfindings _ _ hlevel hvalidate, hprogram _ _ hnone hgenerate rfl⟩

end AgentFlow
