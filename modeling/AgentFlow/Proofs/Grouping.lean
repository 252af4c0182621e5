import Mathlib.Data.List.Nodup
import Mathlib.Data.List.Basic

/-!
# Sorting by groups

A list whose elements belong to groups, the groups having an order. Sorting by the places of the
groups puts the groups one after the other and keeps the order within each (`mergeSort_rankIn`).
-/

namespace AgentFlow

variable {α κ : Type} [DecidableEq κ]

/-- Where all elements of one kind come first, the list is those and then the others. -/
theorem filter_append_filter_not {p : α → Bool} {as : List α}
    (h : as.Pairwise fun a b => p b = true → p a = true) :
    as.filter p ++ as.filter (fun a => !p a) = as := by
  induction as with
  | nil => rfl
  | cons a rest ih =>
    obtain ⟨hhead, hrest⟩ := List.pairwise_cons.1 h
    cases ha : p a with
    | true => simp [ha, ih hrest]
    | false =>
      -- Nothing of the kind comes later, so the list is the others.
      have hnone : rest.filter p = [] := List.filter_eq_nil_iff.2 fun b hb hpb => by
        rw [hhead b hb hpb] at ha
        cases ha
      have hothers := ih hrest
      rw [hnone, List.nil_append] at hothers
      simp [ha, hnone, hothers]

def rankIn (ks : List κ) (f : α → κ) (a b : α) : Bool := ks.idxOf (f a) ≤ ks.idxOf (f b)

/-- A list that is ordered by the places of the groups is the groups one after the other. -/
theorem flatMap_groups_of_pairwise {f : α → κ} {ks : List κ} {as : List α} (hks : ks.Nodup)
    (hmem : ∀ a ∈ as, f a ∈ ks) (horder : as.Pairwise fun a b => rankIn ks f a b) :
    ks.flatMap (fun k => as.filter (f · = k)) = as := by
  induction ks generalizing as with
  | nil => simp [List.eq_nil_iff_forall_not_mem.2 fun a ha => List.not_mem_nil (hmem a ha)]
  | cons k rest ih =>
    obtain ⟨hk, hrest⟩ := List.nodup_cons.1 hks
    -- The first group comes first, because no place is before its own.
    have hfirst : as.Pairwise fun a b => decide (f b = k) = true → decide (f a = k) = true := by
      refine horder.imp fun {a b} hab hb => ?_
      rw [decide_eq_true_eq] at hb ⊢
      by_contra ha
      simp [rankIn, hb, List.idxOf_cons_ne _ (Ne.symm ha)] at hab
    have hothers : ∀ a ∈ as.filter (fun a => !decide (f a = k)), f a ∈ rest := by
      intro a ha
      obtain ⟨ha, hne⟩ := List.mem_filter.1 ha
      exact (List.mem_cons.1 (hmem a ha)).resolve_left (by simpa using hne)
    have horder' :
        (as.filter fun a => !decide (f a = k)).Pairwise fun a b => rankIn rest f a b := by
      refine (horder.filter _).imp_of_mem fun {a b} ha hb hab => ?_
      have ha' := (List.mem_filter.1 ha).2
      have hb' := (List.mem_filter.1 hb).2
      simp only [Bool.not_eq_true', decide_eq_false_iff_not] at ha' hb'
      simpa [rankIn, List.idxOf_cons_ne _ (Ne.symm ha'), List.idxOf_cons_ne _ (Ne.symm hb')]
        using hab
    have hgroup : ∀ j ∈ rest, (as.filter fun a => !decide (f a = k)).filter (f · = j) =
        as.filter (f · = j) := by
      intro j hj
      rw [List.filter_filter]
      refine List.filter_congr fun a _ => ?_
      by_cases haj : f a = j
      · have : j ≠ k := fun h => hk (h ▸ hj)
        simp [haj, this]
      · simp [haj]
    calc (k :: rest).flatMap (fun j => as.filter (f · = j))
        = as.filter (f · = k) ++ rest.flatMap (fun j => as.filter (f · = j)) := List.flatMap_cons
      _ = as.filter (f · = k) ++ rest.flatMap
            (fun j => (as.filter fun a => !decide (f a = k)).filter (f · = j)) := by
        rw [List.flatMap_congr fun j hj => (hgroup j hj).symm]
      _ = as.filter (f · = k) ++ as.filter (fun a => !decide (f a = k)) := by
        rw [ih hrest hothers horder']
      _ = as := filter_append_filter_not hfirst

/-! ## Sorting

The places order the elements, up to those of one group, so sorting is stable within each group. -/

theorem rankIn_trans {ks : List κ} {f : α → κ} (a b c : α) (hab : rankIn ks f a b)
    (hbc : rankIn ks f b c) : rankIn ks f a c := by
  simp only [rankIn, decide_eq_true_eq] at hab hbc ⊢
  exact Nat.le_trans hab hbc

theorem rankIn_total {ks : List κ} {f : α → κ} (a b : α) :
    (rankIn ks f a b || rankIn ks f b a) = true := by
  simp only [rankIn, Bool.or_eq_true, decide_eq_true_eq]
  exact Nat.le_total _ _

/-- Sorting by the places of the groups keeps the order within each group. -/
theorem filter_mergeSort_rankIn (ks : List κ) (f : α → κ) (as : List α) (k : κ) :
    (as.mergeSort (rankIn ks f)).filter (f · = k) = as.filter (f · = k) := by
  have hequal : (as.filter (f · = k)).Pairwise fun a b => rankIn ks f a b := by
    refine List.pairwise_of_forall_mem_list fun a ha b hb => ?_
    simp only [List.mem_filter, decide_eq_true_eq] at ha hb
    simp [rankIn, ha.2, hb.2]
  have hsub := List.sublist_mergeSort rankIn_trans rankIn_total hequal List.filter_sublist
  have hsub' := hsub.filter (fun a => decide (f a = k))
  rw [List.filter_filter] at hsub'
  simp only [Bool.and_self] at hsub'
  -- A sublist of the same length is the whole list.
  have hlen := ((List.mergeSort_perm as (rankIn ks f)).filter fun a => f a = k).length_eq
  exact (hsub'.eq_of_length hlen.symm).symm

/-- **Sorting by the places of the groups** puts the groups one after the other. -/
theorem mergeSort_rankIn {f : α → κ} {ks : List κ} {as : List α} (hks : ks.Nodup)
    (hmem : ∀ a ∈ as, f a ∈ ks) :
    as.mergeSort (rankIn ks f) = ks.flatMap fun k => as.filter (f · = k) := by
  -- The sorted list is ordered by groups, and within each group nothing has moved.
  have hsorted : (as.mergeSort (rankIn ks f)).Pairwise fun a b => rankIn ks f a b :=
    List.pairwise_mergeSort rankIn_trans rankIn_total as
  rw [← flatMap_groups_of_pairwise hks (fun a ha => hmem a (List.mem_mergeSort.1 ha)) hsorted]
  exact List.flatMap_congr fun k _ => filter_mergeSort_rankIn ks f as k

/-- The groups one after the other have all the elements. -/
theorem flatMap_groups_perm {f : α → κ} {ks : List κ} {as : List α} (hks : ks.Nodup)
    (hmem : ∀ a ∈ as, f a ∈ ks) : (ks.flatMap fun k => as.filter (f · = k)).Perm as := by
  rw [← mergeSort_rankIn hks hmem]
  exact List.mergeSort_perm _ _

end AgentFlow
