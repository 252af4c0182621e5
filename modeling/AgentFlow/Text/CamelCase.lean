import AgentFlow.Text.UpperCase

/-!
# Camel case

The parts of a name between underscores, joined with every part but the first capitalised.
-/

namespace AgentFlow.Text

/-- The parts of a text between underscores; there is always at least one, perhaps empty. -/
def underscoreParts : List Char → List (List Char)
  | [] => [[]]
  | c :: cs =>
    if c == '_' then [] :: underscoreParts cs
    else match underscoreParts cs with
      | [] => [[c]]
      | part :: more => (c :: part) :: more

def capitalized : List Char → List Char
  | [] => []
  | c :: cs => upperChar c ++ cs

def camelCase (s : String) : String :=
  match underscoreParts s.toList with
  | [] => ""
  | head :: rest => String.ofList (head ++ rest.flatMap capitalized)

end AgentFlow.Text
