import AgentFlow.Graph.Basic

/-!
# Emission order

Nodes are emitted sources first: always the earliest node that no remaining edge leads into, whose
own edges are then dropped. When there is no such node, the remaining ones lie on a cycle or behind
one, and follow in their given order.
-/

namespace AgentFlow.Plan

variable {α : Type}

def isReady (edges : List Edge) (id : String) : Bool := edges.all (·.target ≠ id)

/-- The elements that do not have a given identifier. -/
def without (id : α → String) (key : String) (as : List α) : List α := as.filter (id · ≠ key)

theorem length_without_lt {id : α → String} {a : α} {as : List α} (h : a ∈ as) :
    (without id (id a) as).length < as.length :=
  List.length_filter_lt_length_iff_exists.2 ⟨a, h, by simp⟩

/-- The waiting elements in emission order, `id` being the identifier of each, all of them distinct;
`edges` are the edges that come from an element that has not been emitted. -/
def emissionOrder (id : α → String) (edges : List Edge) (waiting : List α) : List α :=
  match _h : waiting.find? fun a => isReady edges (id a) with
  -- what is left lies on cycles or behind them
  | none => waiting
  | some a => a :: emissionOrder id (edges.filter (·.source ≠ id a)) (without id (id a) waiting)
termination_by waiting.length
decreasing_by exact length_without_lt (List.mem_of_find?_eq_some _h)

end AgentFlow.Plan
