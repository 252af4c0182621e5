import AgentFlow.Json.Token

/-!
# Reading JSON text

The reader takes tokens one by one and keeps the containers that are open on a stack. `read` is the
value of a text as it is written, with names repeated as they are, if the text is JSON within the
given limits. The first thing that is wrong in the text decides why it is not read.
-/

namespace AgentFlow.Json

/-- A container that is open, its finished parts in reverse: an array, an object between two
fields, or an object whose next field has its name already. A name that is torn is `none`; an
object is torn once a field of such a name was left out. -/
inductive Frame where
  | array (items : List Json)
  | object (fields : List (String × Json)) (isTorn : Bool)
  | field (fields : List (String × Json)) (isTorn : Bool) (name : Option String)

inductive Stage where
  /-- A value. -/
  | value
  /-- The first item of an array, or its end. -/
  | firstItem
  /-- The first name of an object, or its end. -/
  | firstName
  /-- A name, after a comma. -/
  | name
  /-- The colon after a name. -/
  | colon
  /-- A comma or the end of the innermost container. -/
  | afterValue
  /-- Nothing: the text's value is complete. -/
  | complete (v : Json)

structure Reading where
  stage : Stage
  stack : List Frame
  depth : Nat

def Reading.start : Reading := ⟨.value, [], 0⟩

def tornIf (isTorn : Bool) (v : Json) : Json := if isTorn then .torn v else v

/-- The state once a value is complete. -/
def Reading.accept (v : Json) (stack : List Frame) (depth : Nat) : Except ReadError Reading :=
  match stack with
  | [] => .ok ⟨.complete v, [], depth⟩
  | .array items :: rest => .ok ⟨.afterValue, .array (v :: items) :: rest, depth⟩
  | .field fields isTorn (some name) :: rest =>
    .ok ⟨.afterValue, .object ((name, v) :: fields) isTorn :: rest, depth⟩
  -- the field is left out, and the object is torn from here on
  | .field fields _ none :: rest => .ok ⟨.afterValue, .object fields true :: rest, depth⟩
  | .object .. :: _ => .error .malformed

def Reading.enter (r : Reading) (frame : Frame) (stage : Stage) : Reading :=
  ⟨stage, frame :: r.stack, r.depth + 1⟩

def Reading.leave (r : Reading) : Except ReadError Reading :=
  match r.stack with
  | .array items :: rest => Reading.accept (.arr items.reverse) rest (r.depth - 1)
  | .object fields isTorn :: rest =>
    Reading.accept (tornIf isTorn (.obj fields.reverse)) rest (r.depth - 1)
  | _ => .error .malformed

/-- What one token does, where a value may come. -/
def Reading.takeValue (limits : Limits) (r : Reading) : Token → Except ReadError Reading
  | .openArray => .ok (r.enter (.array []) .firstItem)
  | .openObject => .ok (r.enter (.object [] false) .firstName)
  | .text s isTorn => Reading.accept (tornIf isTorn (.str s)) r.stack r.depth
  | .word cs => do Reading.accept (← readWord limits cs) r.stack r.depth
  | _ => .error .malformed

/-- What one token does, where the name of a field may come. -/
def Reading.takeName (r : Reading) : Token → Except ReadError Reading
  | .text s isTorn =>
    match r.stack with
    | .object fields already :: rest =>
      .ok ⟨.colon, .field fields already (if isTorn then none else some s) :: rest, r.depth⟩
    | _ => .error .malformed
  | _ => .error .malformed

/-- The innermost container is not empty, and still within the limit on open containers. -/
def Reading.fill (limits : Limits) (r : Reading) : Except ReadError Unit :=
  if within limits.depth r.depth then .ok () else .error .tooLarge

def Reading.step (limits : Limits) (r : Reading) (t : Token) : Except ReadError Reading :=
  match r.stage, t with
  | .value, t => r.takeValue limits t
  | .firstItem, .closeArray => r.leave
  -- the limit does not count containers that stay empty
  | .firstItem, t => do
    r.fill limits
    r.takeValue limits t
  | .firstName, .closeObject => r.leave
  | .firstName, t => do
    r.fill limits
    r.takeName t
  | .name, t => r.takeName t
  | .colon, .colon => .ok { r with stage := .value }
  | .colon, _ => .error .malformed
  | .afterValue, .comma =>
    match r.stack with
    | .array _ :: _ => .ok { r with stage := .value }
    | .object .. :: _ => .ok { r with stage := .name }
    | _ => .error .malformed
  | .afterValue, .closeArray =>
    match r.stack with
    | .array _ :: _ => r.leave
    | _ => .error .malformed
  | .afterValue, .closeObject =>
    match r.stack with
    | .object .. :: _ => r.leave
    | _ => .error .malformed
  | .afterValue, _ => .error .malformed
  | .complete _, _ => .error .malformed

def Reading.steps (limits : Limits) : Reading → List Token → Except ReadError Reading
  | r, [] => .ok r
  | r, t :: ts => do Reading.steps limits (← r.step limits t) ts

/-- The value of the characters that are left, from a scanner's mode and a reader's state. -/
def readFrom (limits : Limits) : Mode → Reading → List Char → Except ReadError Json
  | mode, r, [] =>
    -- a word at the end has no character behind it to end it
    match mode.finish? with
    | none => .error .malformed
    | some tokens => do
      match (← r.steps limits tokens).stage with
      | .complete v => .ok v
      | _ => .error .malformed
  | mode, r, c :: cs => do
    let (tokens, next) := mode.step limits c
    let r ← r.steps limits tokens
    match next with
    | some mode => readFrom limits mode r cs
    | none => .error .malformed

/-- The value of a JSON text as it is written. -/
def read (limits : Limits) (s : String) : Except ReadError Json :=
  readFrom limits .between .start s.toList

end AgentFlow.Json
