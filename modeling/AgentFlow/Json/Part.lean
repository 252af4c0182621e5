import AgentFlow.Json.Basic

/-!
# Parts of values

The parts of a value are the value itself and the parts of its items and fields. A value is sound if
no part of it is torn, and can be sent if moreover all its numbers are finite.
-/

namespace AgentFlow.Json

mutual

/-- Every part of the value satisfies `p`. -/
def everyPart (p : Json → Bool) : Json → Bool
  | .arr items => p (.arr items) && everyItem p items
  | .obj fields => p (.obj fields) && everyField p fields
  | .torn v => p (.torn v) && everyPart p v
  | v => p v

def everyItem (p : Json → Bool) : List Json → Bool
  | [] => true
  | v :: rest => everyPart p v && everyItem p rest

def everyField (p : Json → Bool) : List (String × Json) → Bool
  | [] => true
  | (_, v) :: rest => everyPart p v && everyField p rest

end

/-- The value itself is not torn. -/
def isWhole : Json → Bool
  | .torn _ => false
  | _ => true

/-- The value itself is neither torn nor a number that is not finite. -/
def isPlain : Json → Bool
  | .torn _ => false
  | .float x => x.isFinite
  | _ => true

/-- No part of the value is torn. -/
def isSound (v : Json) : Bool := v.everyPart isWhole

/-- The value can be sent as it is. -/
def isSendable (v : Json) : Bool := v.everyPart isPlain

end AgentFlow.Json
