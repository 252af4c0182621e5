import AgentFlow.Graph.Basic
import AgentFlow.Text.Fresh
import AgentFlow.Text.Slug

/-!
# Graph keys

In a generated program a node goes by its key, which is a function name in every target language:
the slug of its label, changed where it would start with a digit, be a word that a language or the
program itself needs, or be used already. The key of a node depends on its label and on the nodes
before it only.
-/

namespace AgentFlow.Plan

open Text

def pythonKeywords : List String := [
  "False", "None", "True", "and", "as", "assert", "async", "await", "break", "class", "continue",
  "def", "del", "elif", "else", "except", "finally", "for", "from", "global", "if", "import", "in",
  "is", "lambda", "nonlocal", "not", "or", "pass", "raise", "return", "try", "while", "with",
  "yield"]

/-- The words of TypeScript that cannot name a function. -/
def typeScriptWords : List String := [
  "arguments", "await", "break", "case", "catch", "class", "const", "continue", "debugger",
  "default", "delete", "do", "else", "enum", "eval", "export", "extends", "false", "finally", "for",
  "function", "if", "implements", "import", "in", "instanceof", "interface", "let", "new", "null",
  "package", "private", "protected", "public", "return", "static", "super", "switch", "this",
  "throw", "true", "try", "typeof", "var", "void", "while", "with", "yield"]

/-- The entries of the state of every generated program. -/
def stateKeys : List String := ["messages", "route"]

/-- The names that the generated programs define or rely on. -/
def programNames : List String := ["app", "workflow", "graph", "build_graph", "dict", "list", "str"]

def reservedWords : List String := pythonKeywords ++ typeScriptWords ++ stateKeys ++ programNames

def startsWithDigit (s : String) : Bool := s.toList.head?.any Char.isDigit

/-- The key that a node would have if no other node had it; `place` is the number of nodes before
it. -/
def baseKey (place : Nat) (label : String) : String :=
  let key := slug label
  let key := if key = "" then "node_" ++ (place + 1).repr else key
  let key := if startsWithDigit key then "node_" ++ key else key
  if key ∈ reservedWords then key ++ "_node" else key

/-- The keys of nodes with the given labels, in order; `place` is the number of nodes before them
and `used` holds the keys of those. -/
def keysFrom : (place : Nat) → (used labels : List String) → List String
  | _, _, [] => []
  | place, used, label :: rest =>
    let key := fresh "_" (baseKey place label) used
    key :: keysFrom (place + 1) (key :: used) rest

def assignKeys (nodes : List Node) : List String := keysFrom 0 [] (nodes.map (·.label))

def keyTable (nodes : List Node) : List (String × String) := (nodeIds nodes).zip (assignKeys nodes)

end AgentFlow.Plan
