import AgentFlow.Graph.Dump
import AgentFlow.Http.Encoding
import AgentFlow.Json.Part
import AgentFlow.Json.Reader
import AgentFlow.Schema.Graph

/-!
# Bodies of requests

A body holds a graph as JSON. The answer to a body that holds none repeats, for every fault, the
value that the fault is about; so it cannot be given if such a value cannot be sent.
-/

namespace AgentFlow.Http

open Schema (Fault Step)

/-- The body of a request: none, a text, or a value that is JSON already. -/
inductive Body where
  | absent
  | text (s : String)
  | value (v : Json)

inductive BodyError where
  /-- There is no body. -/
  | missing
  /-- The body is no JSON. -/
  | malformed
  /-- The body is no text, or goes beyond a limit. -/
  | unreadable
  /-- The body is no graph. -/
  | faulty (faults : List Fault)
  /-- The body is no graph, and no answer can say why. -/
  | unspeakable

def bodyLimits : Json.Limits where
  depth := some 960
  digits := some Numeral.integerDigitLimit
  tornTexts := true

def Body.read : Body → Except BodyError Json
  | .absent => .error .missing
  | .value v => .ok v
  | .text s =>
    if s.isEmpty then .error .missing
    else match jsonText? s with
      | none => .error .unreadable
      | some json =>
        match Json.read bodyLimits json with
        | .ok v => .ok v.merged
        | .error .malformed => .error .malformed
        | .error .tooLarge => .error .unreadable

def part? (v : Json) : Step → Option Json
  | .field name => v.get? name
  | .index i =>
    match v with
    | .arr items => items[i]?
    | _ => none

/-- The innermost value on a path, as far as the path leads. -/
def innermost (v : Json) : List Step → Json
  | [] => v
  | step :: rest =>
    match part? v step with
    | some part => innermost part rest
    | none => v

def Body.graph (body : Body) : Except BodyError Graph := do
  let v ← body.read
  match Schema.graph .request v with
  | .ok g => .ok g
  | .faults first more =>
    let faults := first :: more
    if faults.all fun f => (innermost v f.path).isSendable then .error (.faulty faults)
    else .error .unspeakable
  | .unlistable _ => .error .unspeakable

end AgentFlow.Http
