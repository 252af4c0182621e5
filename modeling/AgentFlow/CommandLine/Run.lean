import AgentFlow.Catalog.Template
import AgentFlow.CommandLine.Command
import AgentFlow.CommandLine.Files
import AgentFlow.CommandLine.Logging
import AgentFlow.Graph.Dump
import AgentFlow.Json.Printer
import AgentFlow.Json.Reader
import AgentFlow.Schema.Graph
import AgentFlow.Validation

/-!
# Running commands

What a command prints and how it ends, given the files it may read. A graph is read from its file,
brought into canonical form, and then validated or turned into a program. Started as a program
(`launch`), a command sets up the log before all this.
-/

namespace AgentFlow.CommandLine

inductive Ending where
  /-- It is done: what it prints, and whether all is well. -/
  | done (output : String) (good : Bool)
  /-- It fails, with a reason. -/
  | failed (reason : String)
  /-- The file holds no graph; so many faults were found. -/
  | notAGraph (faults : Nat)
  deriving DecidableEq, Repr

/-- What a command cannot cope with at all: a directory in the place of a file, a path that is too
long, or a value without parts where parts were asked for. -/
inductive Breakdown where
  | isDirectory (path : String)
  | nameTooLong (path : String)
  | unlistable (kind : String)
  deriving DecidableEq, Repr

/-- The limits on the text of a file. -/
def fileLimits : Json.Limits where
  depth := some 200
  digits := some Numeral.integerDigitLimit
  wholeDigits := some Numeral.integerDigitLimit

/-- The graph of a JSON text, in canonical form, or the number of faults in it. -/
def loadGraph (text : String) : Except Breakdown (Except Nat Graph) :=
  match Json.read fileLimits text with
  -- a text that is no JSON counts as one fault
  | .error _ => .ok (.error 1)
  | .ok v =>
    match Schema.graph .text v with
    | .ok g => .ok (.ok (g.canonical []))
    | .faults _ more => .ok (.error (more.length + 1))
    | .unlistable kind => .error (.unlistable kind)

/-- A command that works on the graph of a file. -/
def withGraph (files : String → FileState) (file : String) (work : Graph → Ending) :
    Except Breakdown Ending :=
  let path := tidyPath file
  match files path with
  | .absent => .ok (.failed ("graph file not found: " ++ path))
  | .directory => .error (.isDirectory path)
  | .nameTooLong => .error (.nameTooLong path)
  | .text s =>
    match loadGraph s with
    | .error b => .error b
    | .ok (.error count) => .ok (.notAGraph count)
    | .ok (.ok g) => .ok (work g)

def runGenerate (target : String) (entry project : Option String) (g : Graph) : Ending :=
  let given := project.getD ""
  -- without a name of its own a project has that of the graph
  let project := if given = "" then g.name else given
  match generate (.str target) g.nodes g.edges entry (some project) with
  | .ok code => .done code true
  | .error reason => .failed reason.message

def runValidate (entry : Option String) (asJson : Bool) (g : Graph) : Ending :=
  let issues := validate g.nodes g.edges entry
  let report :=
    if asJson then Json.indented Text.literal 0 (.arr (issues.map Issue.toJson))
    else reportIssues issues
  .done (report ++ "\n") issues.isEmpty

def runTemplate (id : String) : Ending :=
  match Catalog.template? id with
  | none => .failed (Catalog.unknownTemplate id)
  | some t =>
    let g := t.instantiate newNodeId newEdgeId
    .done (g.toJson.indented Json.openLiteral 0 ++ "\n") true

def idWidth : Nat := 18

/-- A text filled up with spaces to a width. -/
def padRight (width : Nat) (s : String) : String :=
  s ++ String.ofList (List.replicate (width - s.length) ' ')

def templateLine (t : Catalog.Template) : String :=
  padRight idWidth t.id ++ " " ++ t.name ++ ": " ++ t.description ++ "\n"

def Command.run (files : String → FileState) : Command → Except Breakdown Ending
  | .generate file target entry project => withGraph files file (runGenerate target entry project)
  | .validate file entry asJson => withGraph files file (runValidate entry asJson)
  | .template id => .ok (runTemplate id)
  | .templates => .ok (.done (String.join (Catalog.templates.map templateLine)) true)

/-- What the program leaves behind: its exit code, its output, and the line that it complains
with. -/
structure Report where
  exit : Nat
  output : String
  complaint : Option String
  deriving DecidableEq, Repr

def faultCount (n : Nat) : String :=
  n.repr ++ " validation error" ++ (if n = 1 then "" else "s") ++ " for FlowGraph"

def Ending.report : Ending → Report
  | .done output good => ⟨if good then 0 else 1, output, none⟩
  | .failed reason => ⟨1, "", some ("Error: " ++ reason)⟩
  | .notAGraph faults => ⟨1, "", some ("Error: invalid graph file: " ++ faultCount faults)⟩

def Refusal.report : Refusal → Report
  | .help program => ⟨0, "usage: " ++ program ++ " [-h]\n", none⟩
  | .usage program reason => ⟨2, "", some (program ++ ": error: " ++ reason.message)⟩

/-! ## The program -/

/-- What the program leaves behind when it is run with some arguments, once its log is set up. -/
def run (files : String → FileState) (args : List String) : Except Breakdown Report :=
  match parseCommand args with
  | .error refusal => .ok refusal.report
  | .ok command => (command.run files).map Ending.report

/-- What stops the program before it can leave a report. -/
inductive Crash where
  | log (reason : LogError)
  | command (reason : Breakdown)
  deriving DecidableEq, Repr

/-- The program, started with some arguments. A command sets up the log first; arguments that ask
for no command are refused before. -/
def launch (files : String → FileState) (args : List String) : Except Crash Report :=
  match parseCommand args, setUpLog (askedLogLevel args) with
  | .ok _, .error reason => .error (.log reason)
  -- without a command the level of the log does not matter
  | _, _ => (run files args).mapError .command

end AgentFlow.CommandLine
