/-!
# Roles

What a node does in a flow. A set of roles is written as a list in the canonical order agent, tool,
router, memory.
-/

namespace AgentFlow

inductive Role where
  | agent
  | tool
  | router
  | memory
  deriving DecidableEq, Repr

namespace Role

def order : List Role := [.agent, .tool, .router, .memory]

/-- The roles of a list, each once and in the canonical order. -/
def canonical (roles : List Role) : List Role := order.filter (· ∈ roles)

def text : Role → String
  | .agent => "agent"
  | .tool => "tool"
  | .router => "router"
  | .memory => "memory"

def ofText? (s : String) : Option Role := order.find? fun role => role.text == s

/-- A role's name at the start of a title. -/
def title : Role → String
  | .agent => "Agent"
  | .tool => "Tool"
  | .router => "Router"
  | .memory => "Memory"

@[simp] theorem mem_order (role : Role) : role ∈ order := by cases role <;> decide

@[simp] theorem mem_canonical {role : Role} {roles : List Role} :
    role ∈ canonical roles ↔ role ∈ roles := by simp [canonical]

@[simp] theorem ofText?_text (role : Role) : ofText? role.text = some role := by
  cases role <;> rfl

end Role

end AgentFlow
