import AgentFlow.Reachability
import Mathlib.Logic.Relation

/-!
# The search finds what paths lead to

`reachable` lists exactly the ends of the paths of zero or more arrows (`mem_reachable_iff`). The
search uses up each arrow that it follows; that loses nothing, because the end of a used arrow has
been seen, and a path over the arrow can start from there instead.
-/

namespace AgentFlow

variable {α : Type} {arrows : List (α × α)} {seen : List α} {a b : α}

/-- A path of zero or more arrows. -/
def Path (arrows : List (α × α)) : α → α → Prop :=
  Relation.ReflTransGen fun x y => (x, y) ∈ arrows

/-- More arrows leave every path there. -/
theorem Path.mono {fewer : List (α × α)} (hsub : fewer ⊆ arrows) (h : Path fewer a b) :
    Path arrows a b :=
  Relation.ReflTransGen.mono (fun _ _ hxy => hsub hxy) _ _ h

variable [DecidableEq α]

/-- When no arrow leads out of what has been seen, no path does. -/
theorem mem_of_path (hclosed : ∀ arrow ∈ arrows, leadsOut seen arrow = false) (ha : a ∈ seen)
    (h : Path arrows a b) : b ∈ seen := by
  induction h with
  | refl => exact ha
  | tail _ hstep ih =>
    have hout := hclosed _ hstep
    simp only [leadsOut, ih, decide_true, Bool.true_and, decide_eq_false_iff_not,
      Decidable.not_not] at hout
    exact hout

/-- A path that starts in what has been seen needs no arrow whose end counts as seen too. -/
theorem path_erase {arrow : α × α} (ha : a ∈ seen) (h : Path arrows a b) :
    ∃ start ∈ arrow.2 :: seen, Path (arrows.erase arrow) start b := by
  induction h with
  | refl => exact ⟨a, List.mem_cons_of_mem _ ha, .refl⟩
  | @tail x y _ hstep ih =>
    obtain ⟨start, hstart, hpath⟩ := ih
    -- The last step either is the erased arrow, and then its end is a start, or is still there.
    by_cases hxy : (x, y) = arrow
    · exact ⟨arrow.2, List.mem_cons_self, by rw [← hxy]; exact .refl⟩
    · exact ⟨start, hstart, hpath.tail ((List.mem_erase_of_ne hxy).2 hstep)⟩

/-- The search finds exactly the ends of the paths that start in what has been seen. -/
theorem mem_spread_iff : a ∈ spread arrows seen ↔ ∃ start ∈ seen, Path arrows start a := by
  fun_induction spread arrows seen with
  | case1 arrows seen hnone =>
    -- The search has stopped: every arrow out of what has been seen leads back into it.
    have hclosed : ∀ arrow ∈ arrows, leadsOut seen arrow = false := by
      simpa using List.find?_eq_none.1 hnone
    exact ⟨fun h => ⟨a, h, .refl⟩, fun ⟨_, hstart, hpath⟩ => mem_of_path hclosed hstart hpath⟩
  | case2 arrows seen arrow hsome ih =>
    rw [ih]
    -- The arrow leads to its end, and without it the end that is seen now serves as a start.
    have harrow : arrow ∈ arrows := List.mem_of_find?_eq_some hsome
    have hfrom : arrow.1 ∈ seen := by
      have := List.find?_some hsome
      simp only [leadsOut, Bool.and_eq_true, decide_eq_true_eq] at this
      exact this.1
    constructor
    · rintro ⟨start, hstart, hpath⟩
      have hpath := hpath.mono List.erase_subset
      rcases List.mem_cons.1 hstart with rfl | hstart
      · exact ⟨arrow.1, hfrom, hpath.head harrow⟩
      · exact ⟨start, hstart, hpath⟩
    · rintro ⟨start, hstart, hpath⟩
      exact path_erase hstart hpath

/-- **The search finds what paths lead to**, and nothing else. -/
theorem mem_reachable_iff : b ∈ reachable arrows a ↔ Path arrows a b := by
  rw [reachable, mem_spread_iff]
  simp

end AgentFlow
