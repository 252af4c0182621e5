import AgentFlow.Proofs.Text.Fresh
import Mathlib.Order.Bounds.Defs

/-!
# The search for a free name

A name that is taken gives way to its variants, and nothing bounds how many of these are looked at.
The search ends all the same, after one probe more than there are used names at most
(`Search.probes_le`): the candidates are all different. It ends at the first candidate that is free
(`search_iff`), and that is the fresh name (`settles_fresh`).
-/

namespace AgentFlow.Text

/-! ## Candidates -/

/-- The candidates for a name in the order in which they are looked at: the name itself, and its
variants from the second one on. -/
def candidate (sep base : String) : Nat → String
  | 0 => base
  | n + 1 => numbered sep base (n + 2)

/-- A variant is longer than the name. -/
theorem numbered_ne (sep base : String) (n : Nat) : numbered sep base n ≠ base := by
  intro h
  have hlength := congrArg (fun s => s.toList.length) h
  have hpos := List.length_pos_of_ne_nil (toList_repr_ne_nil n)
  simp only [numbered, String.toList_append, List.length_append] at hlength
  omega

/-- The candidates are all different. -/
theorem candidate_injective (sep base : String) : Function.Injective (candidate sep base) := by
  intro i j h
  cases i with
  | zero =>
    cases j with
    | zero => rfl
    | succ j => exact absurd h.symm (numbered_ne sep base (j + 2))
  | succ i =>
    cases j with
    | zero => exact absurd h (numbered_ne sep base (i + 2))
    | succ j =>
      have := numbered_injective sep base h
      omega

/-! ## The search -/

/-- From the `n`-th name on, the search looks at so many names and stops at the first that it finds
free. Nothing else stops it. -/
inductive Search (used : List String) (name : Nat → String) : (n probes found : Nat) → Prop where
  | free {n : Nat} (h : name n ∉ used) : Search used name n 1 n
  | taken {n probes found : Nat} (h : name n ∈ used)
      (hlater : Search used name (n + 1) probes found) : Search used name n (probes + 1) found

variable {used : List String} {name : Nat → String} {n probes probes' found found' : Nat}
  {sep base : String}

/-- The search goes from its start to the first name that is free. -/
theorem search_iff : Search used name n probes found ↔
    found + 1 = n + probes ∧ n ≤ found ∧ name found ∉ used ∧
      ∀ i, n ≤ i → i < found → name i ∈ used := by
  constructor
  · intro h
    induction h with
    | free h => exact ⟨rfl, Nat.le_refl _, h, by omega⟩
    | taken h _ ih =>
      obtain ⟨hprobes, hle, hfree, htaken⟩ := ih
      refine ⟨by omega, by omega, hfree, fun i hi hlt => ?_⟩
      rcases Nat.eq_or_lt_of_le hi with rfl | hi
      · exact h
      · exact htaken i hi hlt
  · rintro ⟨hprobes, hle, hfree, htaken⟩
    induction probes generalizing n with
    | zero => omega
    | succ probes ih =>
      -- The first name is the one that is found, or it is taken and the rest follows by induction.
      rcases Nat.eq_or_lt_of_le hle with rfl | hlt
      · obtain rfl : probes = 0 := by omega
        exact .free hfree
      · refine .taken (htaken n (Nat.le_refl n) hlt) (ih (by omega) hlt fun i hi => ?_)
        exact htaken i (by omega)

namespace Search

/-- What the search finds, and after how many probes, is settled by its start. -/
theorem unique (h : Search used name n probes found) (h' : Search used name n probes' found') :
    probes = probes' ∧ found = found' := by
  induction h generalizing probes' with
  | free h =>
    cases h' with
    | free _ => exact ⟨rfl, rfl⟩
    | taken htaken _ => exact absurd htaken h
  | taken h _ ih =>
    cases h' with
    | free hfree => exact absurd h hfree
    | taken _ hlater =>
      obtain ⟨rfl, rfl⟩ := ih hlater
      exact ⟨rfl, rfl⟩

/-- Every probe but the last one finds another used name. -/
theorem probes_le (hname : Function.Injective name) (h : Search used name n probes found) :
    probes ≤ used.toFinset.card + 1 := by
  obtain ⟨hprobes, -, -, htaken⟩ := search_iff.1 h
  have hle : probes - 1 ≤ used.toFinset.card :=
    le_card_of_forall_mem hname fun i hi => htaken (n + i) (by omega) (by omega)
  omega

/-- Where looking at a bounded number of variants finds a free one, so does the search. -/
theorem of_firstFree (h : firstFree used (numbered sep base) probes (n + 2) ∉ used) :
    ∃ probes' found, Search used (candidate sep base) (n + 1) probes' found ∧
      firstFree used (numbered sep base) probes (n + 2) = candidate sep base found := by
  induction probes generalizing n with
  | zero => exact ⟨1, n + 1, .free h, rfl⟩
  | succ probes ih =>
    rw [firstFree] at h ⊢
    split
    · next hn =>
      rw [if_pos hn] at h
      obtain ⟨probes', found, hlater, heq⟩ := ih h
      exact ⟨probes' + 1, found, .taken hn hlater, heq⟩
    · next hn => exact ⟨1, n + 1, .free hn, rfl⟩

end Search

/-! ## What is found -/

/-- How the search for a free name ends: it comes to a stop, and in one way only, after one probe
more than there are used names at most; and the name is the wanted one if that is free, and
otherwise its least variant from the second one on that is free. -/
structure Settles (sep base : String) (used : List String) (name : String) : Prop where
  stops : ∃ probes found,
    (∀ probes' found', Search used (candidate sep base) 0 probes' found' ↔
      probes' = probes ∧ found' = found) ∧
    probes ≤ used.toFinset.card + 1 ∧ candidate sep base found = name
  keeps : base ∉ used → name = base
  numbers : base ∈ used → ∃ n, name = numbered sep base n ∧
    IsLeast {n | 2 ≤ n ∧ numbered sep base n ∉ used} n

/-- However the search ends, it has found the least free candidate. -/
theorem Search.settles (h : Search used (candidate sep base) 0 probes found) :
    Settles sep base used (candidate sep base found) := by
  obtain ⟨-, -, hfree, htaken⟩ := search_iff.1 h
  constructor
  case stops =>
    refine ⟨probes, found, fun probes' found' => ⟨fun h' => h'.unique h, ?_⟩,
      h.probes_le (candidate_injective sep base), rfl⟩
    rintro ⟨rfl, rfl⟩
    exact h
  case keeps =>
    intro hbase
    cases found with
    | zero => rfl
    | succ found => exact absurd (htaken 0 (Nat.le_refl 0) (Nat.succ_pos found)) hbase
  case numbers =>
    intro hbase
    cases found with
    | zero => exact absurd hbase hfree
    | succ found =>
      refine ⟨found + 2, rfl, ⟨Nat.le_add_left 2 found, hfree⟩, ?_⟩
      rintro n ⟨htwo, hn⟩
      obtain ⟨m, rfl⟩ := Nat.exists_eq_add_of_le' htwo
      by_contra hlt
      -- The variants before the one that is found are candidates, too.
      exact hn (htaken (m + 1) (Nat.zero_le _) (by omega))

/-- The fresh name is what the search without a bound finds. -/
theorem settles_fresh (sep base : String) (used : List String) :
    Settles sep base used (fresh sep base used) := by
  by_cases hbase : base ∈ used
  · have hfree : fresh sep base used ∉ used := fresh_notMem sep base used
    rw [fresh, if_pos hbase] at hfree ⊢
    -- The bounded search looks at the variants only, so the first probe is added in front.
    obtain ⟨probes, found, hlater, heq⟩ := Search.of_firstFree (n := 0) hfree
    rw [heq]
    exact (Search.taken hbase hlater).settles
  · rw [fresh_of_notMem hbase]
    have hsearch : Search used (candidate sep base) 0 1 0 := .free hbase
    exact hsearch.settles

end AgentFlow.Text
