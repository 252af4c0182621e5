import AgentFlow.CommandLine.Arguments
import AgentFlow.Skeleton.Target

/-!
# Commands

The commands of the program and what they take: `generate` writes a skeleton, `validate` reports
findings, `template` prints an instance of a template, and `templates` lists the templates.
-/

namespace AgentFlow.CommandLine

inductive Command where
  | generate (file target : String) (entry project : Option String)
  | validate (file : String) (entry : Option String) (asJson : Bool)
  | template (id : String)
  | templates
  deriving DecidableEq, Repr

def Command.file? : Command → Option String
  | .generate file .. | .validate file .. => some file
  | _ => none

def programName : String := "graphbuilder"

def targetOption : Opt := ⟨["--target"], true⟩

def entryOption : Opt := ⟨["--entry"], true⟩

def projectOption : Opt := ⟨["--project-name"], true⟩

def jsonOption : Opt := ⟨["--json"], false⟩

def logOption : Opt := ⟨["--log-level"], true⟩

/-- What the program takes before its command. -/
def mainGrammar : Grammar := ⟨[helpOption, logOption], ["command"], true⟩

def generateGrammar : Grammar :=
  ⟨[helpOption, targetOption, entryOption, projectOption], ["graph_file"], false⟩

def validateGrammar : Grammar := ⟨[helpOption, entryOption, jsonOption], ["graph_file"], false⟩

def templateGrammar : Grammar := ⟨[helpOption], ["template_id"], false⟩

def templatesGrammar : Grammar := ⟨[helpOption], [], false⟩

def generateCommand (s : Sorted) : Command :=
  .generate (s.operands.headD "") ((s.value? targetOption.key).getD Target.python.name)
    (s.value? entryOption.key) (s.value? projectOption.key)

def validateCommand (s : Sorted) : Command :=
  .validate (s.operands.headD "") (s.value? entryOption.key) (s.hasFlag jsonOption.key)

/-- The commands by name, with what they take. -/
def commands : List (String × Grammar × (Sorted → Command)) := [
  ("generate", generateGrammar, generateCommand),
  ("validate", validateGrammar, validateCommand),
  ("template", templateGrammar, fun s => .template (s.operands.headD "")),
  ("templates", templatesGrammar, fun _ => .templates)]

/-- Why no command is run: help is asked for, or the usage is wrong; `program` is the program, with
the command if there is one. -/
inductive Refusal where
  | help (program : String)
  | usage (program : String) (reason : UsageError)
  deriving DecidableEq, Repr

def Stop.refusal (program : String) : Stop → Refusal
  | .help => .help program
  | .wrong reason => .usage program reason

/-- The command that the arguments of the program ask for. Arguments that nothing takes are refused
last, by the program itself. -/
def parseCommand (args : List String) : Except Refusal Command :=
  match mainGrammar.parse args with
  | .error stop => .error (stop.refusal programName)
  | .ok outer =>
    let name := outer.operands.headD ""
    match commands.lookup name with
    | none => .error (.usage programName (.unknownCommand name (commands.map (·.1))))
    | some (grammar, command) =>
      match grammar.parse (outer.operands.drop 1) with
      | .error stop => .error (stop.refusal (programName ++ " " ++ name))
      | .ok inner =>
        -- what was left over before the command comes first
        match outer.extras ++ inner.extras with
        | [] => .ok (command inner)
        | extras => .error (.usage programName (.unrecognized extras))

end AgentFlow.CommandLine
