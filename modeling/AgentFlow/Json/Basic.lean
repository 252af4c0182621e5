import AgentFlow.Numeral.Binary64

/-!
# JSON values

A JSON value keeps whole numbers apart from doubles and its fields in order. A value as it is
written may repeat a name among the fields of an object. Where the fields are looked up by name, a
repeated name keeps its first place and takes its last value (`settle`); `merged` does so all the
way down.

The escapes of JSON can spell half of a surrogate pair on its own, which is no character. Such a
text is torn: it is a value, but not a text.
-/

namespace AgentFlow

open Numeral (Binary64)

/-- A JSON value. `torn v` is a text, or an object by a field's name, that is torn; `v` is the text
without the lone halves, or the object without the fields whose names are torn. -/
inductive Json where
  | null
  | bool (b : Bool)
  | int (i : Int)
  | float (x : Binary64)
  | str (s : String)
  | arr (items : List Json)
  | obj (fields : List (String × Json))
  | torn (v : Json)

namespace Json

instance : Inhabited Json := ⟨.null⟩

/-- The fields with one more: a name that is there already keeps its place and takes the value. -/
def putField {α : Type} : (fields : List (String × α)) → (name : String) → α → List (String × α)
  | [], name, v => [(name, v)]
  | (k, old) :: rest, name, v =>
    if k = name then (k, v) :: rest else (k, old) :: putField rest name v

/-- The fields by name: a repeated name keeps its first place and takes its last value. -/
def settle {α : Type} (fields : List (String × α)) : List (String × α) :=
  fields.foldl (fun known (name, v) => putField known name v) []

mutual

/-- The value with the fields of every object settled. -/
def merged : Json → Json
  | .arr items => .arr (mergedItems items)
  | .obj fields => .obj (settle (mergedFields fields))
  | .torn v => .torn v.merged
  | v => v

def mergedItems : List Json → List Json
  | [] => []
  | v :: rest => v.merged :: mergedItems rest

def mergedFields : List (String × Json) → List (String × Json)
  | [] => []
  | (name, v) :: rest => (name, v.merged) :: mergedFields rest

end

def field? (fields : List (String × Json)) (name : String) : Option Json := fields.lookup name

/-- The value of an object's field; the object may be torn. -/
def get? (v : Json) (name : String) : Option Json :=
  match v with
  | .obj fields | .torn (.obj fields) => field? fields name
  | _ => none

/-- A value counts as nothing if it is null, false, zero or empty. -/
def isNothing : Json → Bool
  | .null => true
  | .bool b => !b
  | .int i => i == 0
  | .float x => x.isZero
  | .str s => s.isEmpty
  | .arr items => items.isEmpty
  | .obj fields => fields.isEmpty
  | .torn _ => false

def ofOption (s : Option String) : Json :=
  match s with
  | some s => .str s
  | none => .null

def texts (ss : List String) : Json := .arr (ss.map .str)

mutual

/-- Equality of values, decided. -/
def decEq : (a b : Json) → Decidable (a = b)
  | .null, .null => isTrue rfl
  | .bool a, .bool b => decidable_of_iff (a = b) (by simp)
  | .int a, .int b => decidable_of_iff (a = b) (by simp)
  | .float a, .float b => decidable_of_iff (a = b) (by simp)
  | .str a, .str b => decidable_of_iff (a = b) (by simp)
  | .arr a, .arr b => @decidable_of_iff _ (a = b) (by simp) (decEqItems a b)
  | .obj a, .obj b => @decidable_of_iff _ (a = b) (by simp) (decEqFields a b)
  | .torn a, .torn b => @decidable_of_iff _ (a = b) (by simp) (decEq a b)
  | .null, .bool _ | .null, .int _ | .null, .float _ | .null, .str _ | .null, .arr _ | .null, .obj _
  | .null, .torn _ | .bool _, .null | .bool _, .int _ | .bool _, .float _ | .bool _, .str _
  | .bool _, .arr _ | .bool _, .obj _ | .bool _, .torn _ | .int _, .null | .int _, .bool _
  | .int _, .float _ | .int _, .str _ | .int _, .arr _ | .int _, .obj _ | .int _, .torn _
  | .float _, .null | .float _, .bool _ | .float _, .int _ | .float _, .str _ | .float _, .arr _
  | .float _, .obj _ | .float _, .torn _ | .str _, .null | .str _, .bool _ | .str _, .int _
  | .str _, .float _ | .str _, .arr _ | .str _, .obj _ | .str _, .torn _ | .arr _, .null
  | .arr _, .bool _ | .arr _, .int _ | .arr _, .float _ | .arr _, .str _ | .arr _, .obj _
  | .arr _, .torn _ | .obj _, .null | .obj _, .bool _ | .obj _, .int _ | .obj _, .float _
  | .obj _, .str _ | .obj _, .arr _ | .obj _, .torn _ | .torn _, .null | .torn _, .bool _
  | .torn _, .int _ | .torn _, .float _ | .torn _, .str _ | .torn _, .arr _
  | .torn _, .obj _ => isFalse (by simp)

def decEqItems : (a b : List Json) → Decidable (a = b)
  | [], [] => isTrue rfl
  | [], _ :: _ | _ :: _, [] => isFalse (by simp)
  | x :: xs, y :: ys =>
    match decEq x y, decEqItems xs ys with
    | isTrue h, isTrue h' => isTrue (by rw [h, h'])
    | isFalse h, _ => isFalse fun e => h (List.cons.inj e).1
    | _, isFalse h => isFalse fun e => h (List.cons.inj e).2

def decEqFields : (a b : List (String × Json)) → Decidable (a = b)
  | [], [] => isTrue rfl
  | [], _ :: _ | _ :: _, [] => isFalse (by simp)
  | (k, x) :: xs, (l, y) :: ys =>
    if hk : k = l then
      match decEq x y, decEqFields xs ys with
      | isTrue h, isTrue h' => isTrue (by rw [hk, h, h'])
      | isFalse h, _ => isFalse fun e => h (Prod.mk.inj (List.cons.inj e).1).2
      | _, isFalse h => isFalse fun e => h (List.cons.inj e).2
    else isFalse fun e => hk (Prod.mk.inj (List.cons.inj e).1).1

end

instance : DecidableEq Json := decEq

end Json

end AgentFlow
