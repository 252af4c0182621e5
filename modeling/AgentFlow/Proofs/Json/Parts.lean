import AgentFlow.Json.Part
import Mathlib.Tactic.Common

/-!
# What holds of every part of a value

A container has a property throughout if its items have it, or its fields' values: so it is with
being sound, and with finite numbers.
-/

namespace AgentFlow.Json

/-! ## Parts of containers -/

/-- The items of an array, as a list. -/
theorem everyItem_eq_all (p : Json → Bool) (items : List Json) :
    everyItem p items = items.all (everyPart p) := by
  induction items with
  | nil => rfl
  | cons v rest ih => rw [everyItem, ih, List.all_cons]

/-- The values of an object's fields, as a list. -/
theorem everyField_eq_all (p : Json → Bool) (fields : List (String × Json)) :
    everyField p fields = fields.all (everyPart p ·.2) := by
  induction fields with
  | nil => rfl
  | cons field rest ih => rw [everyField, ih, List.all_cons]

@[simp] theorem isSound_str (s : String) : (Json.str s).isSound = true := rfl

@[simp] theorem isSound_arr (items : List Json) : (Json.arr items).isSound = items.all isSound := by
  simp only [isSound, everyPart, isWhole, Bool.true_and, everyItem_eq_all]
  rfl

@[simp] theorem isSound_obj (fields : List (String × Json)) :
    (Json.obj fields).isSound = fields.all (·.2.isSound) := by
  simp only [isSound, everyPart, isWhole, Bool.true_and, everyField_eq_all]

@[simp] theorem isSound_texts (ss : List String) : (Json.texts ss).isSound = true := by
  simp [texts]

@[simp] theorem isSound_ofOption (s : Option String) : (Json.ofOption s).isSound = true := by
  cases s <;> rfl

/-! ## Finite numbers -/

/-- The value itself is not a number that is not finite. -/
def isFinitePart : Json → Bool
  | .float x => x.isFinite
  | _ => true

/-- All numbers in the value are finite. -/
def hasFiniteNumbers (v : Json) : Bool := v.everyPart isFinitePart

@[simp] theorem hasFiniteNumbers_null : Json.null.hasFiniteNumbers = true := rfl

@[simp] theorem hasFiniteNumbers_str (s : String) : (Json.str s).hasFiniteNumbers = true := rfl

@[simp] theorem hasFiniteNumbers_arr (items : List Json) :
    (Json.arr items).hasFiniteNumbers = items.all hasFiniteNumbers := by
  simp only [hasFiniteNumbers, everyPart, isFinitePart, Bool.true_and, everyItem_eq_all]
  rfl

@[simp] theorem hasFiniteNumbers_obj (fields : List (String × Json)) :
    (Json.obj fields).hasFiniteNumbers = fields.all (·.2.hasFiniteNumbers) := by
  simp only [hasFiniteNumbers, everyPart, isFinitePart, Bool.true_and, everyField_eq_all]

@[simp] theorem hasFiniteNumbers_torn (v : Json) :
    (Json.torn v).hasFiniteNumbers = v.hasFiniteNumbers := by
  simp only [hasFiniteNumbers, everyPart, isFinitePart, Bool.true_and]

@[simp] theorem hasFiniteNumbers_texts (ss : List String) :
    (Json.texts ss).hasFiniteNumbers = true := by
  simp [texts]

@[simp] theorem hasFiniteNumbers_ofOption (s : Option String) :
    (Json.ofOption s).hasFiniteNumbers = true := by
  cases s <;> rfl

end AgentFlow.Json
