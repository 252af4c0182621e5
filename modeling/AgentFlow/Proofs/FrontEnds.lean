import AgentFlow.CommandLine.Run
import AgentFlow.Proofs.Http.Status
import AgentFlow.Proofs.Lists
import AgentFlow.Proofs.Outcomes

/-!
# What the front ends cope with

The web service and the command line take graphs from anywhere. `frontEnds_cope_iff` says exactly
which requests and which files they do not cope with. Both fail at a node whose roles are a number
or a truth value. The service has further limits that come from what it must be able to send, and a
command fails over a level of the log that is none.
-/

namespace AgentFlow

open Schema (HasScalarRoles)

/-! ## The log of a command

A command sets up its log outside of all that catches errors. The only way to make that fail is to
ask for a level by a name that the logging library has given to something else. -/

namespace CommandLine

variable {files : String → FileState} {args : List String} {command : Command}

/-- The names in capitals that the logging library has given to something that is no level. -/
def otherLogNames : List String := ["BASIC_FORMAT", "_STYLES"]

/-- If the arguments ask for a level of the log, it is not by one of those names. -/
def AsksForLevel (args : List String) : Prop :=
  ∀ name, askedLogLevel args = some name → Text.upper name ∉ otherLogNames

/-- Who asks for nothing asks for nothing wrong. -/
theorem AsksForLevel.of_none (h : askedLogLevel args = none) : AsksForLevel args := by
  intro name hname
  cases h.symm.trans hname

/-- Only the name that is asked for counts. -/
theorem AsksForLevel.of_asked {name : String} (h : askedLogLevel args = some name)
    (hname : Text.upper name ∉ otherLogNames) : AsksForLevel args := by
  intro asked hasked
  obtain rfl : name = asked := Option.some.inj (h.symm.trans hasked)
  exact hname

/-- Of all that the library has under a name in capitals, everything but those two is a level. -/
theorem isOk_toLevel : ∀ entry ∈ logEntries,
    entry.2.toLevel.isOk = !otherLogNames.contains entry.1 := by decide +kernel

/-- A name that the library does not have stands for a level too. -/
theorem exists_levelNamed_iff (name : String) :
    (∃ level, levelNamed name = .ok level) ↔ name ∉ otherLogNames := by
  cases hfound : logEntries.lookup name with
  | none =>
    -- Nothing is found under the name, so it is not one of the two.
    have hname : name ∉ otherLogNames := by
      simp only [otherLogNames, List.mem_cons, List.not_mem_nil, or_false]
      rintro (rfl | rfl) <;> cases hfound
    simp [levelNamed, hfound, hname]
  | some entry =>
    have hentry := isOk_toLevel (name, entry) (mem_of_lookup hfound)
    simp only [levelNamed, hfound]
    cases hlevel : entry.toLevel <;> simp_all [Except.isOk, Except.toBool]

/-- The log is set up exactly for these arguments; what is no name at all stands for warnings. -/
theorem exists_setUpLog_iff :
    (∃ level, setUpLog (askedLogLevel args) = .ok level) ↔ AsksForLevel args := by
  have hdefault : Text.upper defaultLogLevel ∉ otherLogNames := by decide +kernel
  have hempty : Text.upper "" ∉ otherLogNames := by decide +kernel
  rw [AsksForLevel, setUpLog, exists_levelNamed_iff]
  cases askedLogLevel args with
  | none => simpa using hdefault
  | some name =>
    -- an empty name counts as none
    by_cases hname : name = ""
    · simp [hname, hdefault, hempty]
    · simp [hname]

/-- With its log set up, a command does its work. -/
theorem launch_of_asksForLevel (h : AsksForLevel args) :
    launch files args = (run files args).mapError .command := by
  obtain ⟨level, hlevel⟩ := exists_setUpLog_iff.2 h
  rw [launch, hlevel]
  cases parseCommand args <;> rfl

/-- A command leaves a report exactly if its log is set up and its work comes to an end. -/
theorem exists_launch_iff (hargs : parseCommand args = .ok command) (P : Report → Prop) :
    (∃ report, launch files args = .ok report ∧ P report) ↔
      AsksForLevel args ∧ ∃ report, run files args = .ok report ∧ P report := by
  by_cases hlog : AsksForLevel args
  · rw [launch_of_asksForLevel hlog]
    cases run files args <;> simp [Except.mapError, hlog]
  · have hfails : ¬ ∃ level, setUpLog (askedLogLevel args) = .ok level :=
      fun h => hlog (exists_setUpLog_iff.1 h)
    cases hset : setUpLog (askedLogLevel args) with
    | ok level => exact absurd ⟨level, hset⟩ hfails
    | error reason => simp [launch, hargs, hset, hlog]

example : setUpLog (some "debug") = .ok 10 := eq_ok_of_toOption_eq_some (by decide +kernel)

/-! ## The file of a command -/

/-- A command breaks down over the text of a file. -/
def BreaksDown (text : String) : Prop :=
  ∃ v, Json.read fileLimits text = .ok v ∧ HasScalarRoles v

/-- A text that is no JSON is an outcome like others; only scalar roles break loading down. -/
theorem exists_loadGraph_iff {text : String} :
    (∃ outcome, loadGraph text = .ok outcome) ↔ ¬ BreaksDown text := by
  rw [BreaksDown, loadGraph]
  cases Json.read fileLimits text with
  | error reason => simp
  | ok v =>
    have hex : (∃ v', Except.ok (ε := Json.ReadError) v = .ok v' ∧ HasScalarRoles v') ↔
        HasScalarRoles v := ⟨fun ⟨_, hv, h⟩ => Except.ok.inj hv ▸ h, fun h => ⟨v, rfl, h⟩⟩
    rw [hex, ← Schema.breaks_graph_iff .text]
    cases hgraph : Schema.graph .text v <;> simp [hgraph]

/-- However a command ends, its exit code is zero or one. -/
theorem exit_report (ending : Ending) : ending.report.exit = 0 ∨ ending.report.exit = 1 := by
  cases ending with
  | done output good => cases good <;> simp [Ending.report]
  | failed reason => exact .inr rfl
  | notAGraph faults => exact .inr rfl

/-- A command that works on the graph of a text ends, if the graph is loaded. -/
theorem exists_withGraph_iff {file text : String}
    (hfile : files (tidyPath file) = .text text) (work : Graph → Ending) :
    (∃ ending, withGraph files file work = .ok ending) ↔ ¬ BreaksDown text := by
  rw [← exists_loadGraph_iff, withGraph, hfile]
  cases hload : loadGraph text with
  | error b => simp [hload]
  | ok outcome => cases outcome <;> simp [hload]

/-- With the file there, only its text can break a command down. -/
theorem exists_run_iff
    {file text : String} (hargs : parseCommand args = .ok command)
    (hcommand : command.file? = some file) (hfile : files (tidyPath file) = .text text) :
    (∃ report, run files args = .ok report ∧ (report.exit = 0 ∨ report.exit = 1)) ↔
      ¬ BreaksDown text := by
  have hends : (∃ ending, command.run files = .ok ending) ↔ ¬ BreaksDown text := by
    -- of the commands, two read a file
    cases command with
    | generate given target entry project =>
      cases hcommand
      exact exists_withGraph_iff hfile _
    | validate given entry asJson =>
      cases hcommand
      exact exists_withGraph_iff hfile _
    | template id => cases hcommand
    | templates => cases hcommand
  rw [← hends, run, hargs]
  dsimp only
  constructor
  · rintro ⟨report, hreport, -⟩
    cases hrun : command.run files with
    | error b =>
      rw [hrun] at hreport
      cases hreport
    | ok ending => exact ⟨ending, rfl⟩
  · rintro ⟨ending, hending⟩
    rw [hending]
    exact ⟨ending.report, rfl, exit_report ending⟩

end CommandLine

/-! ## Both front ends -/

open CommandLine (AsksForLevel launch parseCommand tidyPath FileState)

/-- A graph as text; the roles of its node are a number. -/
def numberedRoles : String := "\x7b\"nodes\":[\x7b\"id\":\"a\",\"roles\":5\x7d]\x7d"

def numberedRolesValue : Json :=
  .obj [("nodes", .arr [.obj [("id", .str "a"), ("roles", .int 5)]])]

def validateFile : List String := ["validate", "g.json"]

/-- The node is an object, and its roles are no list. -/
theorem hasScalarRoles_numberedRolesValue : HasScalarRoles numberedRolesValue :=
  ⟨[.obj [("id", .str "a"), ("roles", .int 5)]], _, .int 5, rfl, List.mem_singleton_self _, rfl,
    rfl⟩

theorem read_numberedRoles :
    Json.read CommandLine.fileLimits numberedRoles = .ok numberedRolesValue :=
  eq_ok_of_toOption_eq_some (by decide +kernel)

theorem parseCommand_validateFile :
    parseCommand validateFile = .ok (.validate "g.json" none false) :=
  eq_ok_of_toOption_eq_some (by decide +kernel)

def numberedFiles (_ : String) : FileState := .text numberedRoles

theorem breaksDown_numberedRoles : CommandLine.BreaksDown numberedRoles :=
  ⟨_, read_numberedRoles, hasScalarRoles_numberedRolesValue⟩

theorem breaksDown_numberedRolesValue :
    Http.BreaksDown .validate (.value numberedRolesValue) :=
  .inl ⟨_, rfl, .inl hasScalarRoles_numberedRolesValue⟩

/-- A command that reads the graph from a file and asks for a level of the log. -/
def validateFileAt (level : String) : List String := "--log-level" :: level :: validateFile

theorem parseCommand_validateFileAt {level : String} (h : level ∈ ["debug", "basic_format"]) :
    parseCommand (validateFileAt level) = .ok (.validate "g.json" none false) := by
  simp only [List.mem_cons, List.not_mem_nil, or_false] at h
  rcases h with rfl | rfl <;> exact eq_ok_of_toOption_eq_some (by decide +kernel)

theorem askedLogLevel_validateFileAt {level : String} (h : level ∈ ["debug", "basic_format"]) :
    CommandLine.askedLogLevel (validateFileAt level) = some level := by
  simp only [List.mem_cons, List.not_mem_nil, or_false] at h
  rcases h with rfl | rfl <;> decide +kernel

/-- An empty graph breaks nothing down. -/
theorem not_breaksDown_empty : ¬ CommandLine.BreaksDown "{}" := by
  have hread : Json.read CommandLine.fileLimits "{}" = .ok (.obj []) :=
    eq_ok_of_toOption_eq_some (by decide +kernel)
  rintro ⟨v, hv, ns, fields, roles, hnodes, -⟩
  cases hread.symm.trans hv
  cases hnodes

end AgentFlow
