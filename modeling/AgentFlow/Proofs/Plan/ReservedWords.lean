import AgentFlow.Proofs.Plan.Keys
import AgentFlow.Proofs.Text.Slugs

/-!
# Keys and reserved words

Keys are slugs (`isSlug_of_mem_assignKeys`) and no reserved words (`notMem_reservedWords_of_mem`).
What a number or camel case makes of a name is no reserved word either, since it has a mark in it
and no reserved word has one behind a small letter (`notMem_reservedWords_of_isMark`).
-/

namespace AgentFlow.Plan

open Text

variable {s key : String}

/-! ## Reserved words -/

/-- A name with a capital or a digit in it is not reserved: the words with capitals start with one.
-/
theorem notMem_reservedWords_of_isMark (h : IsName s) {c : Char} (hc : c ∈ s.toList)
    (hmark : isMark c = true) : s ∉ reservedWords := by
  have hwords : ∀ word ∈ reservedWords, (word.toList.head?.any Char.isLower) = true →
      (word.toList.all fun c => !isMark c) = true := by decide +kernel
  intro hmem
  obtain ⟨first, hhead, hlower⟩ := h.head
  have hall := hwords s hmem (by rw [hhead]; exact hlower)
  have hnone := List.all_eq_true.1 hall c hc
  rw [hmark] at hnone
  cases hnone

/-- The number at the end keeps a name from being reserved. -/
theorem notMem_reservedWords_numbered {sep base : String} {n : Nat}
    (h : IsName (numbered sep base n)) : numbered sep base n ∉ reservedWords := by
  obtain ⟨c, hc, hmark⟩ := exists_isMark_numbered sep base n
  exact notMem_reservedWords_of_isMark h hc hmark

/-- No reserved word ends as the variant of a reserved key does. -/
theorem append_node_notMem_reservedWords (s : String) : s ++ "_node" ∉ reservedWords := by
  have hwords : ∀ word ∈ reservedWords, ¬ "_node".toList <:+ word.toList := by decide +kernel
  intro hmem
  refine hwords _ hmem ?_
  rw [String.toList_append]
  exact List.suffix_append _ _

/-- No reserved word starts as the name of a router does. -/
theorem routeFrom_notMem_reservedWords (key : String) : "route_from_" ++ key ∉ reservedWords := by
  have hwords : ∀ word ∈ reservedWords, ¬ "route_from_".toList <+: word.toList := by
    decide +kernel
  intro hmem
  refine hwords _ hmem ?_
  rw [String.toList_append]
  exact List.prefix_append _ _

/-! ## Keys -/

theorem isSlug_node_append (h : IsSlug s.toList) : IsSlug ("node_" ++ s).toList := by
  have hnode : IsSlug "node".toList := .of_forall (List.all_eq_true.1 rfl) (by decide)
  rw [String.toList_append]
  exact hnode.append_gap h

theorem isSlug_append_node (h : IsSlug s.toList) : IsSlug (s ++ "_node").toList := by
  have hnode : IsSlug "node".toList := .of_forall (List.all_eq_true.1 rfl) (by decide)
  rw [String.toList_append]
  exact h.append_gap hnode

/-- The key that a node asks for is a slug. -/
theorem isSlug_baseKey (place : Nat) (label : String) : IsSlug (baseKey place label).toList := by
  unfold baseKey
  extract_lets slugged filled prefixed
  have hfilled : IsSlug filled.toList := by
    by_cases hempty : slugged = ""
    · have heq : filled = "node_" ++ (place + 1).repr := if_pos hempty
      rw [heq]
      exact isSlug_node_append (.repr _)
    · have heq : filled = slug label := if_neg hempty
      rw [heq]
      exact isSlug_slug hempty
  have hprefixed : IsSlug prefixed.toList := by
    unfold prefixed
    split
    · exact isSlug_node_append hfilled
    · exact hfilled
  split
  · exact isSlug_append_node hprefixed
  · exact hprefixed

/-- A key that would be reserved is replaced by a variant. -/
theorem baseKey_notMem_reservedWords (place : Nat) (label : String) :
    baseKey place label ∉ reservedWords := by
  unfold baseKey
  extract_lets slugged filled prefixed
  split
  · exact append_node_notMem_reservedWords _
  · next h => exact h

variable {nodes : List Node}

/-- All keys are slugs, those with a number as well. -/
theorem isSlug_of_mem_assignKeys (h : key ∈ assignKeys nodes) : IsSlug key.toList := by
  refine forall_mem_keysFrom (P := fun key => IsSlug key.toList) isSlug_baseKey ?_ h
  intro place label n
  rw [numbered, String.append_assoc, String.toList_append, String.toList_append]
  exact (isSlug_baseKey place label).append_gap (.repr n)

/-- No key is reserved. -/
theorem notMem_reservedWords_of_mem (h : key ∈ assignKeys nodes) : key ∉ reservedWords := by
  refine forall_mem_keysFrom (P := fun key => key ∉ reservedWords) baseKey_notMem_reservedWords ?_ h
  intro place label n
  exact notMem_reservedWords_numbered
    ((isName_baseKey place label).numbered (List.all_eq_true.1 rfl) n)

/-! ## Names of functions -/

/-- Camel case makes no reserved word of a key: it leaves the key alone or puts a mark in it. -/
theorem camelCase_notMem_reservedWords (hname : IsName s) (hslug : IsSlug s.toList)
    (h : s ∉ reservedWords) : camelCase s ∉ reservedWords := by
  by_cases hmem : '_' ∈ s.toList
  · obtain ⟨c, hc, hmark⟩ := exists_isMark_camelCase hslug hmem
    exact notMem_reservedWords_of_isMark hname.camelCase hc hmark
  · rwa [camelCase_of_notMem hmem]

end AgentFlow.Plan
