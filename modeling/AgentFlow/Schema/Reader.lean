import AgentFlow.Json.Display
import AgentFlow.Numeral.Reading
import AgentFlow.Schema.Fault

/-!
# Reading typed data

Reading a value into a type either succeeds, or collects every fault on the way in order, or breaks
off at a value that cannot even be looked into. Readers combine from left to right: faults add up,
and the first break wins over all faults.
-/

namespace AgentFlow.Schema

open Numeral

/-- The outcome of reading: a value, faults (at least one), or the kind of a value without parts
where parts were asked for. -/
inductive Outcome (α : Type) where
  | ok (a : α)
  | faults (first : Fault) (more : List Fault)
  | unlistable (kind : String)
  deriving DecidableEq

namespace Outcome

variable {α β : Type}

def fault (p : Problem) : Outcome α := .faults ⟨[], p⟩ []

def map (f : α → β) : Outcome α → Outcome β
  | .ok a => .ok (f a)
  | .faults first more => .faults first more
  | .unlistable kind => .unlistable kind

/-- What was read, used to read on; faults of the first part stop here. -/
def andThen (x : Outcome α) (f : α → Outcome β) : Outcome β :=
  match x with
  | .ok a => f a
  | .faults first more => .faults first more
  | .unlistable kind => .unlistable kind

/-- Two readings one after the other. -/
def seq (f : Outcome (α → β)) (x : Outcome α) : Outcome β :=
  match f, x with
  -- a break wins over all faults, wherever it is
  | .unlistable kind, _ => .unlistable kind
  | _, .unlistable kind => .unlistable kind
  | .ok g, .ok a => .ok (g a)
  | .ok _, .faults first more => .faults first more
  | .faults first more, .ok _ => .faults first more
  | .faults first more, .faults second rest => .faults first (more ++ second :: rest)

instance : Applicative Outcome where
  pure := .ok
  seq f x := f.seq (x ())
  map := map

/-- The same outcome, its faults lying one step deeper. -/
def under (step : Step) : Outcome α → Outcome α
  | .ok a => .ok a
  | .faults first more =>
    let deeper := fun f : Fault => { f with path := step :: f.path }
    .faults (deeper first) (more.map deeper)
  | .unlistable kind => .unlistable kind

def allFaults : Outcome α → List Fault
  | .faults first more => first :: more
  | _ => []

end Outcome

/-- A way to read a value into a type. -/
abbrev Reader (α : Type) := Json → Outcome α

variable {α : Type}

def text : Reader String
  | .str s => .ok s
  | _ => .fault .notText

def nullable (read : Reader α) : Reader (Option α)
  | .null => .ok none
  | v => (read v).map some

/-- The items of a list, read in order; `i` is the number of items before these. -/
def readItems (read : Reader α) : (i : Nat) → List Json → Outcome (List α)
  | _, [] => .ok []
  | i, v :: rest => List.cons <$> (read v).under (.index i) <*> readItems read (i + 1) rest

def listOf (read : Reader α) : Reader (List α)
  | .arr items => readItems read 0 items
  | _ => .fault .notList

def readFields (read : Reader α) : List (String × Json) → Outcome (List (String × α))
  | [] => .ok []
  | (name, v) :: rest =>
    List.cons <$> ((read v).under (.field name)).map (name, ·) <*> readFields read rest

/-- An object whose fields all hold values of one type. -/
def objectOf (read : Reader α) : Reader (List (String × α))
  | .obj fields => (readFields read fields).map Json.settle
  | _ => .fault .notObject

def anyObject : Reader (List (String × Json))
  | .obj fields => .ok (Json.settle (Json.mergedFields fields))
  | _ => .fault .notObject

def choice (choices : List (String × α)) : Reader α := fun v =>
  match v with
  | .str s =>
    match choices.lookup s with
    | some a => .ok a
    | none => .fault (.notOneOf (choices.map (·.1)))
  | _ => .fault (.notOneOf (choices.map (·.1)))

/-- A number: also a truth value, and a text that spells a number. A whole number beyond the
greatest double is infinite in JSON text, and no number elsewhere. -/
def number (origin : Origin) : Reader Binary64
  | .float x => .ok x
  | .int i =>
    let x := Binary64.ofInt i
    if x.isFinite || origin = .text then .ok x else .fault .notNumber
  | .bool b => .ok (Binary64.ofInt (if b then 1 else 0))
  | .str s =>
    match readDoubleField? s with
    | some x => .ok x
    | none => .fault .unreadableNumber
  | _ => .fault .notNumber

/-- The bound on the whole numbers that are taken from a double. -/
def wholeBound : Nat := Nat.pow 2 63

/-- A whole number: also a truth value, a double without a fraction, and a text that spells one. -/
def whole : Reader Int
  | .int i => .ok i
  | .bool b => .ok (if b then 1 else 0)
  | .float x =>
    -- the checks come in this order
    if !x.isFinite then .fault .notFinite
    else match x.toInt? with
      | none => .fault .fractional
      | some i => if i.natAbs < wholeBound then .ok i else .fault .wholeTooLarge
  | .str s =>
    match readIntegerField s with
    | .value i => .ok i
    | .tooLarge => .fault .wholeTooLarge
    | .malformed => .fault .unreadableWhole
  | _ => .fault .notWhole

def required (fields : List (String × Json)) (name : String) (read : Reader α) : Outcome α :=
  match Json.field? fields name with
  | some v => (read v).under (.field name)
  | none => (Outcome.fault .missing).under (.field name)

def optional (fields : List (String × Json)) (name : String) (read : Reader α) (absent : α) :
    Outcome α :=
  match Json.field? fields name with
  | some v => (read v).under (.field name)
  | none => .ok absent

/-- A record, by its fields; fields that the record does not have are ignored, also those whose
names are torn. -/
def record (name : String) (read : List (String × Json) → Outcome α) : Reader α
  | .obj fields | .torn (.obj fields) => read (Json.settle fields)
  | _ => .fault (.notRecord name)

/-- The parts of a value that is looked into: the items of a list, the characters of a text, the
names of an object's fields. What is torn is its own only part. -/
def parts : Json → Except String (List Json)
  | .arr items => .ok items
  | .str s => .ok (s.toList.map fun c => .str (String.ofList [c]))
  | .obj fields => .ok (fields.map fun field => .str field.1)
  | .torn v => .ok [.torn v]
  -- numbers, truth values and null have no parts
  | v => .error v.kindName

end AgentFlow.Schema
