import AgentFlow.Json.Basic
import AgentFlow.Numeral.Text
import AgentFlow.Text.Quoted

/-!
# Values in messages

How messages show a value: texts quoted, lists in brackets, objects as quoted names with their
values, and the constants `None`, `True` and `False`.
-/

namespace AgentFlow.Json

open Text (quoted)

mutual

/-- A value as a message shows it. -/
def display : Json → String
  | .null => "None"
  | .bool true => "True"
  | .bool false => "False"
  | .int i => i.repr
  | .float x => x.text
  | .str s => quoted s
  | .arr items => "[" ++ ", ".intercalate (displayItems items) ++ "]"
  | .obj fields => "\x7b" ++ ", ".intercalate (displayFields fields) ++ "\x7d"
  | .torn v => v.display

def displayItems : List Json → List String
  | [] => []
  | v :: rest => v.display :: displayItems rest

def displayFields : List (String × Json) → List String
  | [] => []
  | (name, v) :: rest => (quoted name ++ ": " ++ v.display) :: displayFields rest

end

/-- A value as running text: a text stands for itself. -/
def plain : Json → String
  | .str s => s
  | v => v.display

def kindName : Json → String
  | .null => "NoneType"
  | .bool _ => "bool"
  | .int _ => "int"
  | .float _ => "float"
  | .str _ => "str"
  | .arr _ => "list"
  | .obj _ => "dict"
  | .torn v => v.kindName

end AgentFlow.Json
