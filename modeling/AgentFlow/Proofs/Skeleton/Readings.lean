import AgentFlow.Proofs.Skeleton.PythonReader
import AgentFlow.Proofs.Skeleton.TypeScriptReader

/-!
# Reading the programs of a plan

Whatever the texts in a graph are, each target's program can be read back line by line. What it says
is the graph of the plan, as far as its literals mean the texts that they were written for
(`Target.read_program`). As JSON they do (`Plan.read_program_eq_wiring`). The languages themselves
have rules of their own, of which later modules treat.
-/

namespace AgentFlow

open Skeleton Text

variable {α : Type} {nodes : List Node} {edges : List Edge} {entryId : Option String} {p : Plan}

namespace Target

/-- The graph that a program of a target language spells, its literals decoded in a given way. -/
def read (decode : Decoder α) : Target → String → Option (Wiring α)
  | .python => (Python.layout decode).read
  | .typescript => (TypeScript.layout decode).read

theorem isName_routeFrom {key : String} (h : IsName key) : IsName ("route_from_" ++ key) :=
  IsName.append ⟨⟨'r', rfl, rfl⟩, List.all_eq_true.1 rfl⟩ h.chars

/-- What the readers rely on: there are enough names, and all of them are names. -/
theorem legible (h : plan nodes edges entryId = .ok p) (t : Target) :
    Legible p (t.dialect.functionNames p) := by
  cases t with
  | python => exact legible_of_plan h (fun _ hkey => hkey) fun _ => isName_routeFrom
  | typescript =>
    exact legible_of_plan h (fun _ => IsName.camelCase) fun _ hkey =>
      (isName_routeFrom hkey).camelCase

/-- A program says the keys of its plan by literals, whatever these mean. The layout of the program
is read the same way for every meaning. -/
theorem read_program {decode : Decoder α} {denote : String → α} (hdecode : Decodes decode denote)
    (h : plan nodes edges entryId = .ok p) (project : Option String) (t : Target) :
    t.read decode (p.program t project) = some (p.wiring.map denote) := by
  have hlegible : Legible p (t.dialect.functionNames p) := legible h t
  cases t with
  | python => exact Python.read_render hdecode hlegible _
  | typescript => exact TypeScript.read_render hdecode hlegible _

end Target

/-- The programs of a plan spell the same graph, which is that of the plan: with literals decoded as
JSON, the code that wrote them, both targets read alike. -/
theorem Plan.read_program_eq_wiring (h : plan nodes edges entryId = .ok p) (project : Option String)
    (t : Target) : t.read readLiteral (p.program t project) = some p.wiring := by
  have hdecode : Decodes readLiteral id := readLiteral_literal
  have hread := Target.read_program hdecode h project t
  rwa [Wiring.map_id] at hread

end AgentFlow
