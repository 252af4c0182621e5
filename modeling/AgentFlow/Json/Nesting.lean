import AgentFlow.Json.Basic

/-!
# The nesting of values

How many values lie within each other, the innermost one included: a value without parts has
nesting one.
-/

namespace AgentFlow.Json

mutual

/-- The greatest number of values within each other, the value itself included. -/
def nesting : Json → Nat
  | .arr items => nestingItems items + 1
  | .obj fields => nestingFields fields + 1
  | .torn v => v.nesting
  | _ => 1

def nestingItems : List Json → Nat
  | [] => 0
  | v :: rest => max v.nesting (nestingItems rest)

def nestingFields : List (String × Json) → Nat
  | [] => 0
  | (_, v) :: rest => max v.nesting (nestingFields rest)

end

end AgentFlow.Json
