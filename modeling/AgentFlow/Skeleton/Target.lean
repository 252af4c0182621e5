import AgentFlow.Json.Display
import AgentFlow.Skeleton.Python
import AgentFlow.Skeleton.TypeScript

/-!
# Code generation

The target languages by their names, and the program of a graph in each of them.
-/

namespace AgentFlow

open Skeleton (Dialect)

inductive Target where
  | python
  | typescript
  deriving DecidableEq, Repr

namespace Target

def all : List Target := [.python, .typescript]

def name : Target → String
  | .python => "python"
  | .typescript => "typescript"

def aliases : List (String × Target) := [
  ("python", .python), ("py", .python), ("langgraph", .python),
  ("typescript", .typescript), ("ts", .typescript), ("javascript", .typescript),
  ("js", .typescript)]

/-- The target that a text names, whatever its case and the blanks around it. -/
def named? (s : String) : Option Target :=
  aliases.lookup (String.ofList (Text.lower (Text.trim s).toList))

def dialect : Target → Dialect
  | .python => Skeleton.Python.dialect
  | .typescript => Skeleton.TypeScript.dialect

end Target

inductive GenerateError where
  | unknownTarget (value : Json)
  | noPlan (reason : PlanError)
  deriving DecidableEq

def GenerateError.message : GenerateError → String
  | .unknownTarget value => "unknown code generation target: " ++ value.display
  | .noPlan reason => reason.message

/-- The target that a value names. A value that is no text names one by its spelling. -/
def Target.ofJson (value : Json) : Except GenerateError Target :=
  match Target.named? value.plain with
  | some target => .ok target
  | none => .error (.unknownTarget value)

/-- The name of a project: the one given, unless it is empty. -/
def projectName (given : Option String) : String :=
  let name := given.getD ""
  if name = "" then defaultFlowName else name

def Plan.program (plan : Plan) (target : Target) (project : Option String) : String :=
  target.dialect.render plan (projectName project)

/-- The program of a graph in the target language that a value names. -/
def generate (target : Json) (nodes : List Node) (edges : List Edge) (entryId : Option String)
    (project : Option String) : Except GenerateError String := do
  -- an unknown target is told before any corruption
  let target ← Target.ofJson target
  match plan nodes edges entryId with
  | .ok plan => return plan.program target project
  | .error reason => throw (.noPlan reason)

/-- The programs of a graph in all target languages, from one plan. -/
def generateAll (nodes : List Node) (edges : List Edge) (entryId : Option String)
    (project : Option String) : Except GenerateError (List (Target × String)) :=
  match plan nodes edges entryId with
  | .ok plan => .ok (Target.all.map fun target => (target, plan.program target project))
  | .error reason => .error (.noPlan reason)

end AgentFlow
