/-!
# Lists without repetitions

The distinct elements of a list in the order in which they are first seen, and how often each
occurs. An element is among the distinct ones exactly if it is in the list (`mem_firstSeen`), and
none is there twice (`nodup_firstSeen`).
-/

namespace AgentFlow

variable {α : Type} [DecidableEq α]

/-- The distinct elements of a list, each at its first place. -/
def firstSeen : List α → List α
  | [] => []
  | a :: rest => a :: (firstSeen rest).filter (· ≠ a)

/-- How often each element occurs, in the order in which they are first seen. -/
def tally (as : List α) : List (α × Nat) := (firstSeen as).map fun a => (a, as.count a)

def repeated (as : List α) : List (α × Nat) := (tally as).filter fun entry => 1 < entry.2

@[simp] theorem mem_firstSeen {a : α} {as : List α} : a ∈ firstSeen as ↔ a ∈ as := by
  induction as with
  | nil => simp [firstSeen]
  | cons b rest ih =>
    by_cases h : a = b
    · simp [firstSeen, h]
    · simp [firstSeen, h, ih]

theorem nodup_firstSeen (as : List α) : (firstSeen as).Nodup := by
  induction as with
  | nil => simp [firstSeen]
  | cons b rest ih => exact List.nodup_cons.2 ⟨by simp, List.Pairwise.filter _ ih⟩

end AgentFlow
