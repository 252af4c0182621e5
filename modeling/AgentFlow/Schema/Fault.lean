import AgentFlow.Json.Basic

/-!
# Faults of incoming data

A fault says where in a value it lies and what is wrong there. Its wording depends on where the
value comes from: from a program, from JSON text, or from the body of a request.
-/

namespace AgentFlow.Schema

/-- One step on the way from a value to a part of it. -/
inductive Step where
  | field (name : String)
  | index (i : Nat)
  deriving DecidableEq, Repr

inductive Origin where
  | program
  | text
  | request
  deriving DecidableEq, Repr

inductive Problem where
  | missing
  | notText
  | notList
  | notObject
  | notRecord (name : String)
  | notOneOf (choices : List String)
  | notNumber
  | unreadableNumber
  | notWhole
  | fractional
  | unreadableWhole
  | wholeTooLarge
  | notFinite
  | refused (reason : String)
  deriving DecidableEq, Repr

structure Fault where
  path : List Step
  problem : Problem
  deriving DecidableEq, Repr

def Step.toJson : Step → Json
  | .field name => .str name
  | .index i => .int i

namespace Problem

/-- The choices in quotes, with a word before the last one. -/
def choiceList : List String → String
  | [] => ""
  | [a] => "'" ++ a ++ "'"
  | [a, b] => "'" ++ a ++ "' or '" ++ b ++ "'"
  | a :: rest => "'" ++ a ++ "', " ++ choiceList rest

def code (origin : Origin) : Problem → String
  | .missing => "missing"
  | .notText => "string_type"
  | .notList => "list_type"
  | .notObject => "dict_type"
  | .notRecord _ => if origin = .request then "model_attributes_type" else "model_type"
  | .notOneOf _ => "enum"
  | .notNumber => "float_type"
  | .unreadableNumber => "float_parsing"
  | .notWhole => "int_type"
  | .fractional => "int_from_float"
  | .unreadableWhole => "int_parsing"
  | .wholeTooLarge => "int_parsing_size"
  | .notFinite => "finite_number"
  | .refused _ => "value_error"

def message (origin : Origin) : Problem → String
  | .missing => "Field required"
  | .notText => "Input should be a valid string"
  | .notList =>
    if origin = .text then "Input should be a valid array" else "Input should be a valid list"
  | .notObject =>
    if origin = .text then "Input should be an object" else "Input should be a valid dictionary"
  | .notRecord name =>
    match origin with
    | .program => "Input should be a valid dictionary or instance of " ++ name
    | .text => "Input should be an object"
    | .request => "Input should be a valid dictionary or object to extract fields from"
  | .notOneOf choices => "Input should be " ++ choiceList choices
  | .notNumber => "Input should be a valid number"
  | .unreadableNumber => "Input should be a valid number, unable to parse string as a number"
  | .notWhole => "Input should be a valid integer"
  | .fractional => "Input should be a valid integer, got a number with a fractional part"
  | .unreadableWhole => "Input should be a valid integer, unable to parse string as an integer"
  | .wholeTooLarge => "Unable to parse input string as an integer, exceeded maximum size"
  | .notFinite => "Input should be a finite number"
  | .refused reason => "Value error, " ++ reason

end Problem

def Fault.toJson (origin : Origin) (f : Fault) : Json := .obj [
  ("type", .str (f.problem.code origin)),
  ("loc", .arr (f.path.map Step.toJson)),
  ("msg", .str (f.problem.message origin))]

end AgentFlow.Schema
