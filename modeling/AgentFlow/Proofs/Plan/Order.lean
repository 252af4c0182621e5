import AgentFlow.Plan.Order
import Mathlib.Data.List.Nodup

/-!
# The emission order has every node

The emission order is the waiting nodes in another order: what is emitted first is one of them, and
where identifiers are distinct, only that one goes.
-/

namespace AgentFlow.Plan

variable {α : Type} {id : α → String}

/-- Where identifiers are distinct, dropping one drops one element. -/
theorem perm_cons_without {a : α} {as : List α} (hids : (as.map id).Nodup) (h : a ∈ as) :
    (a :: without id (id a) as).Perm as := by
  obtain ⟨before, after, rfl⟩ := List.append_of_mem h
  rw [List.map_append, List.map_cons, List.nodup_middle, List.nodup_cons, ← List.map_append] at hids
  -- The identifier of `a` is no other element's, before it or after it.
  have hkept : without id (id a) (before ++ after) = before ++ after := by
    refine List.filter_eq_self.2 fun b hb => ?_
    rw [decide_eq_true_eq]
    intro heq
    exact hids.1 (heq ▸ List.mem_map_of_mem hb)
  have hdropped : without id (id a) (before ++ a :: after) = before ++ after := by
    rw [← hkept]
    simp [without]
  rw [hdropped]
  exact List.perm_middle.symm

/-- What is ready comes first, and its edges are dropped with it. -/
theorem emissionOrder_of_find?_eq_some {edges : List Edge} {waiting : List α} {a : α}
    (h : waiting.find? (fun a => isReady edges (id a)) = some a) :
    emissionOrder id edges waiting =
      a :: emissionOrder id (edges.filter (·.source ≠ id a)) (without id (id a) waiting) := by
  rw [emissionOrder]
  split
  · next hnone => cases h.symm.trans hnone
  · next b hsome => cases h.symm.trans hsome; rfl

/-- Where nothing is ready, the order stays. -/
theorem emissionOrder_of_find?_eq_none {edges : List Edge} {waiting : List α}
    (h : waiting.find? (fun a => isReady edges (id a)) = none) :
    emissionOrder id edges waiting = waiting := by
  rw [emissionOrder]
  split
  · rfl
  · next a hsome => cases h.symm.trans hsome

/-- Induction along the emission of waiting elements. -/
theorem emission_induction (id : α → String) {motive : List Edge → List α → Prop}
    (stuck : ∀ edges waiting, waiting.find? (fun a => isReady edges (id a)) = none →
      motive edges waiting)
    (emit : ∀ edges waiting a, waiting.find? (fun a => isReady edges (id a)) = some a →
      motive (edges.filter (·.source ≠ id a)) (without id (id a) waiting) → motive edges waiting)
    (edges : List Edge) (waiting : List α) : motive edges waiting := by
  cases hfind : waiting.find? fun a => isReady edges (id a) with
  | none => exact stuck edges waiting hfind
  | some a => exact emit edges waiting a hfind (emission_induction id stuck emit _ _)
termination_by waiting.length
decreasing_by exact length_without_lt (List.mem_of_find?_eq_some hfind)

/-- **The emission order has every waiting element once.** -/
theorem emissionOrder_perm {edges : List Edge} {waiting : List α}
    (hids : (waiting.map id).Nodup) : (emissionOrder id edges waiting).Perm waiting := by
  induction edges, waiting using emission_induction id with
  | stuck edges waiting hfind => rw [emissionOrder_of_find?_eq_none hfind]
  | emit edges waiting a hfind ih =>
    have hrest : ((without id (id a) waiting).map id).Nodup :=
      hids.sublist (List.filter_sublist.map id)
    rw [emissionOrder_of_find?_eq_some hfind]
    exact ((ih hrest).cons a).trans (perm_cons_without hids (List.mem_of_find?_eq_some hfind))

end AgentFlow.Plan
