import AgentFlow.Proofs.Skeleton.PythonLiterals
import AgentFlow.Proofs.Skeleton.TypeScriptLiterals

/-!
# Where the programs of a plan build the same graph

The programs of a plan spell the same graph, and run in its own language the TypeScript program
builds that graph. The Python program builds it in UTF-16 units: Python does not join the two halves
that a character beyond the basic plane is written in. The keys of nodes are ASCII, so the two
programs build the same graph exactly if no route key has such a character
(`Plan.programs_agree_iff`).
-/

namespace AgentFlow

open Skeleton Text

variable {nodes : List Node} {edges : List Edge} {entryId : Option String} {p : Plan}

/-! ## What the programs build -/

/-- The graph that a Python program builds, by the code points of its keys. -/
def pythonGraph (code : String) : Option (Wiring (List Nat)) :=
  Target.python.read Python.readString code

/-- The graph that a TypeScript program builds. -/
def typeScriptGraph (code : String) : Option (Wiring String) :=
  Target.typescript.read TypeScript.readString code

/-- **Where the programs of a plan build the same graph.** Both spell the graph of the plan. The
TypeScript program builds it, and the Python program builds it in UTF-16 units; these are its code
points, as in TypeScript, exactly if all route keys keep to the basic plane. -/
theorem Plan.programs_agree_iff (h : plan nodes edges entryId = .ok p) (project : Option String) :
    (∀ t : Target, t.read readLiteral (p.program t project) = some p.wiring) ∧
    typeScriptGraph (p.program .typescript project) = some p.wiring ∧
    pythonGraph (p.program .python project) = some (p.wiring.map Python.codeUnits) ∧
    (pythonGraph (p.program .python project) =
        (typeScriptGraph (p.program .typescript project)).map (·.map Python.codePoints) ↔
      ∀ b ∈ p.branches, ∀ r ∈ b.routes, Python.IsBasic r.key) := by
  have htypeScript : typeScriptGraph (p.program .typescript project) = some p.wiring :=
    TypeScript.read_program_readString h project
  have hpython : pythonGraph (p.program .python project) = some (p.wiring.map Python.codeUnits) :=
    Target.read_program Python.readString_literal h project .python
  refine ⟨Plan.read_program_eq_wiring h project, htypeScript, hpython, ?_⟩
  rw [htypeScript, Option.map_some]
  exact Python.read_program_iff h project

/-! ## Two plans -/

/-- Three nodes; the label of the first one ends lines, literals and comments. -/
def quotedNodes : List Node := [
  { id := "a", label := "*/ \"\"\" // # \n \\", roles := [.agent] },
  { id := "b", label := "Yes", roles := [.agent] }, { id := "c", label := "No", roles := [.agent] }]

/-- Two edges with route keys, of which one is given and one ends its line, and an edge back. -/
def quotedEdges (key : String) : List Edge := [
  { source := "a", target := "b", kind := .conditional, routeKey := some "\"\n, \x7d" },
  { source := "a", target := "c", kind := .conditional, routeKey := some key },
  { source := "b", target := "a" }]

def quotedWiring (key : String) : Wiring String where
  nodes := ["node_1", "yes", "no"]
  entries := ["node_1"]
  edges := [("yes", "node_1")]
  tables := [("node_1", [("\"\n, \x7d", "yes"), (key, "no")])]
  sinks := ["no"]

/-- Of these route keys only the given one can go beyond the basic plane. -/
theorem exists_plan_quoted (key : String) (h : key ∈ ["π", "😀"]) :
    ∃ p, plan quotedNodes (quotedEdges key) none = .ok p ∧ p.wiring = quotedWiring key ∧
      ((∀ b ∈ p.branches, ∀ r ∈ b.routes, Python.IsBasic r.key) ↔ Python.IsBasic key) := by
  simp only [List.mem_cons, List.not_mem_nil, or_false] at h
  rcases h with rfl | rfl <;> exact ⟨_, rfl, by decide +kernel, by decide +kernel⟩

/-- Quotes, line ends and letters beyond ASCII in labels and route keys do not set the programs
apart. -/
theorem Plan.programs_agree_iff_quoted : ∃ p, plan quotedNodes (quotedEdges "π") none = .ok p ∧
    typeScriptGraph (p.program .typescript none) = some (quotedWiring "π") ∧
    pythonGraph (p.program .python none) = some ((quotedWiring "π").map Python.codePoints) := by
  obtain ⟨p, h, hwiring, hbasic⟩ := exists_plan_quoted "π" (by decide)
  obtain ⟨-, htypeScript, -, hagree⟩ := Plan.programs_agree_iff h none
  have hpython := hagree.2 (hbasic.2 (by decide +kernel))
  rw [htypeScript, hwiring] at hpython
  exact ⟨p, h, hwiring ▸ htypeScript, hpython⟩

/-- A route key beyond the basic plane sets the programs apart. -/
theorem Plan.not_programs_agree :
    ¬ ∀ nodes edges entryId p project, plan nodes edges entryId = .ok p →
      pythonGraph (p.program .python project) =
        (typeScriptGraph (p.program .typescript project)).map (·.map Python.codePoints) := by
  intro hall
  obtain ⟨p, h, -, hbasic⟩ := exists_plan_quoted "😀" (by decide)
  have hagree := hall quotedNodes (quotedEdges "😀") none p none h
  rw [typeScriptGraph, TypeScript.read_program_readString h] at hagree
  -- else the theorem would make the key basic
  have hsmile : Python.IsBasic "😀" := hbasic.1 ((Python.read_program_iff h none).1 hagree)
  exact absurd hsmile (by decide +kernel)

end AgentFlow
