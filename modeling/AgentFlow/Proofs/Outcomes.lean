import AgentFlow.Schema.Reader

/-!
# Steps that may fail

A sequence of steps succeeds exactly if each of its steps does, for results with one error and for
readings that collect faults.
-/

namespace AgentFlow

/-! ## Results -/

section Except

variable {ε α β : Type} {x : Except ε α} {f : α → Except ε β}

/-- Two steps succeed exactly if the first does, and the second does with its result. -/
theorem bind_eq_ok_iff {b : β} : (x >>= f) = .ok b ↔ ∃ a, x = .ok a ∧ f a = .ok b := by
  cases x with
  | error reason =>
    constructor
    · rintro ⟨⟩
    · rintro ⟨_, ⟨⟩, _⟩
  | ok a =>
    constructor
    · exact fun h => ⟨a, rfl, h⟩
    · rintro ⟨_, ⟨⟩, h⟩
      exact h

/-- A step without a result is only checked. -/
theorem check_eq_ok_iff {x : Except ε Unit} {f : Unit → Except ε β} {b : β} :
    (x >>= f) = .ok b ↔ x = .ok () ∧ f () = .ok b := by
  rw [bind_eq_ok_iff]
  constructor
  · rintro ⟨⟨⟩, h⟩
    exact h
  · exact fun h => ⟨(), h⟩

theorem pure_eq_ok_iff {a b : α} : (pure a : Except ε α) = .ok b ↔ b = a := by
  constructor
  · rintro ⟨⟩
    rfl
  · rintro rfl
    rfl

/-- A computed result can be compared as an option, where equality is decidable. -/
theorem eq_ok_of_toOption_eq_some {a : α} (h : x.toOption = some a) : x = .ok a := by
  cases x with
  | error reason => cases h
  | ok b => exact congrArg _ (Option.some.inj h)

end Except

/-! ## Readings -/

namespace Schema.Outcome

variable {α β : Type} {x : Outcome α}

theorem map_eq_ok_iff {f : α → β} {b : β} : x.map f = .ok b ↔ ∃ a, x = .ok a ∧ f a = b := by
  cases x <;> simp [map]

theorem seq_eq_ok_iff {f : Outcome (α → β)} {b : β} :
    f <*> x = .ok b ↔ ∃ g a, f = .ok g ∧ x = .ok a ∧ g a = b := by
  show f.seq x = .ok b ↔ _
  cases f <;> cases x <;> simp [seq]

end Schema.Outcome

/-- Where a record is read, its fields were found and read. -/
theorem Schema.exists_fields_of_record_eq_ok {α : Type} {name : String}
    {read : List (String × Json) → Schema.Outcome α} {v : Json} {a : α}
    (h : Schema.record name read v = .ok a) : ∃ fields, read fields = .ok a := by
  unfold Schema.record at h
  split at h
  · exact ⟨_, h⟩
  · exact ⟨_, h⟩
  · cases h

end AgentFlow
