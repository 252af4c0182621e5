/-!
# Reachability

`reachable arrows start` lists what can be reached from `start` along the arrows, `start` itself
included. As long as an arrow leads out of what has been seen, its end is added and the arrow is
used up; so the search ends when there are no more arrows at the latest.
-/

namespace AgentFlow

variable {α : Type} [DecidableEq α]

/-- The arrow leads from something seen to something that is not. -/
def leadsOut (seen : List α) (arrow : α × α) : Bool := arrow.1 ∈ seen && arrow.2 ∉ seen

/-- What has been seen, and all that can be reached from it. -/
def spread (arrows : List (α × α)) (seen : List α) : List α :=
  match _h : arrows.find? (leadsOut seen) with
  | none => seen
  | some arrow => spread (arrows.erase arrow) (arrow.2 :: seen)
termination_by arrows.length
decreasing_by
  -- an arrow is used up in each step
  have hmem := List.mem_of_find?_eq_some _h
  have hlen := List.length_erase_of_mem hmem
  have hpos := List.length_pos_of_mem hmem
  omega

def reachable (arrows : List (α × α)) (start : α) : List α := spread arrows [start]

end AgentFlow
