/-!
# Maximal runs

`runs p cs` lists the maximal runs of elements of `cs` that satisfy `p`, in order. What lies
between two runs is dropped. Joining the runs gives back exactly the elements that satisfy `p`
(`flatten_runs`), and no run is empty (`ne_nil_of_mem_runs`).
-/

namespace AgentFlow.Text

variable {α : Type}

/-- The rest of a list after leading elements are dropped is no longer than the list. -/
theorem length_dropWhile_le (p : α → Bool) (l : List α) :
    (l.dropWhile p).length ≤ l.length :=
  (List.dropWhile_sublist p).length_le

/-- The maximal runs of elements that satisfy `p`. -/
def runs (p : α → Bool) (cs : List α) : List (List α) :=
  match _h : cs.dropWhile (fun c => !p c) with
  | [] => []
  | c :: rest => (c :: rest.takeWhile p) :: runs p (rest.dropWhile p)
termination_by cs.length
decreasing_by
  have h1 := length_dropWhile_le (fun c => !p c) cs
  have h2 := length_dropWhile_le p rest
  rw [_h] at h1
  simp only [List.length_cons] at h1
  omega

theorem ne_nil_of_mem_runs {p : α → Bool} {cs run : List α} (h : run ∈ runs p cs) :
    run ≠ [] := by
  fun_induction runs p cs with
  | case1 => simp at h
  | case2 cs c rest _ ih =>
    rcases List.mem_cons.1 h with rfl | h
    · simp
    · exact ih h

theorem flatten_runs (p : α → Bool) (cs : List α) : (runs p cs).flatten = cs.filter p := by
  fun_induction runs p cs with
  | case1 cs h =>
    have hcs : cs = cs.takeWhile (fun c => !p c) := by
      have := List.takeWhile_append_dropWhile (p := fun c => !p c) (l := cs)
      rw [h, List.append_nil] at this
      exact this.symm
    have hnone : ∀ c ∈ cs, ¬ p c = true := by
      intro c hc
      rw [hcs] at hc
      have := List.all_eq_true.1 (List.all_takeWhile (p := fun c => !p c) (l := cs)) c hc
      simpa using this
    exact (List.filter_eq_nil_iff.2 hnone).symm
  | case2 cs c rest h ih =>
    have hpc : p c = true := by
      have := List.head?_dropWhile_not (fun c => !p c) cs
      simpa [h] using this
    have hcs : cs = cs.takeWhile (fun c => !p c) ++ c :: rest := by
      conv => lhs; rw [← List.takeWhile_append_dropWhile (p := fun c => !p c) (l := cs), h]
    have hpre : (cs.takeWhile fun c => !p c).filter p = [] := by
      rw [List.filter_eq_nil_iff]
      intro x hx
      have := List.all_takeWhile (p := fun c => !p c) (l := cs)
      simpa using List.all_eq_true.1 this x hx
    have hrest : rest = rest.takeWhile p ++ rest.dropWhile p :=
      (List.takeWhile_append_dropWhile (p := p) (l := rest)).symm
    have htake : (rest.takeWhile p).filter p = rest.takeWhile p := by
      rw [List.filter_eq_self]
      intro x hx
      exact List.all_eq_true.1 (List.all_takeWhile (p := p) (l := rest)) x hx
    rw [hcs, List.filter_append, hpre, List.nil_append, List.filter_cons_of_pos hpc]
    conv => rhs; rw [hrest, List.filter_append, htake]
    simp [ih]

end AgentFlow.Text
