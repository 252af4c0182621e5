import AgentFlow.Text.Fresh
import AgentFlow.Proofs.Text.Trimming
import Mathlib.Data.Finset.Card
import Mathlib.Data.List.Nodup

/-!
# Fresh names are free

A fresh name is none of the used ones (`fresh_notMem`): the variants of a name are all different,
so the used names cannot hold one more variant than there are used names. A list of fresh names has
no repetitions (`nodup_freshAll`), and its candidates that are not free when their turn comes are
those that an earlier name has taken (`mem_clashes_iff`): none, where no candidate occurs twice
(`clashes_eq_nil_iff`).
-/

namespace AgentFlow.Text

/-! ## Variants of a name -/

/-- Variants of a name under different numbers are different. -/
theorem numbered_injective (sep base : String) : Function.Injective (numbered sep base) := by
  intro i j h
  have hlist := congrArg String.toList h
  simp only [numbered, String.toList_append] at hlist
  -- The digits stand at the end, behind what all variants share, and determine the number.
  have hdigits : Nat.toDigits 10 i = Nat.toDigits 10 j := by
    rw [← Nat.toList_repr, ← Nat.toList_repr]
    exact List.append_cancel_left hlist
  rw [← Nat.ofDigitChars_ten_toDigits (n := i), hdigits, Nat.ofDigitChars_ten_toDigits]

theorem isSlugChar_of_isDigit {c : Char} (h : c.isDigit = true) : isSlugChar c = true := by
  simp only [Char.isDigit, Bool.and_eq_true, decide_eq_true_eq] at h
  simp only [isSlugChar, Bool.or_eq_true, Bool.and_eq_true, decide_eq_true_eq]
  exact Or.inr ⟨h.1, h.2⟩

theorem toList_repr_ne_nil (n : Nat) : n.repr.toList ≠ [] := by
  rw [Nat.toList_repr]
  exact Nat.toDigits_ne_nil

theorem isDigit_of_mem_repr {c : Char} {n : Nat} (h : c ∈ n.repr.toList) : c.isDigit = true := by
  rw [Nat.toList_repr] at h
  exact Nat.isDigit_of_mem_toDigits (by decide) (by decide) h

theorem isSlugChar_of_mem_repr {c : Char} {n : Nat} (h : c ∈ n.repr.toList) :
    isSlugChar c = true := isSlugChar_of_isDigit (isDigit_of_mem_repr h)

/-- A number at its end keeps a text from ending in a blank. -/
theorem endsBlank_append_repr (s : String) (n : Nat) : endsBlank (s ++ n.repr) = false := by
  have hne : n.repr.toList ≠ [] := toList_repr_ne_nil n
  have hlast : (s ++ n.repr).toList.getLast? = some (n.repr.toList.getLast hne) := by
    rw [String.toList_append, List.getLast?_append_of_ne_nil _ hne,
      List.getLast?_eq_some_getLast hne]
  rw [endsBlank, hlast]
  exact isBlank_eq_false_of_isSlugChar (isSlugChar_of_mem_repr (List.getLast_mem hne))

/-! ## The search -/

/-- The search returns a used name only after finding every variant that it looks at used. -/
theorem mem_of_firstFree_mem {used : List String} {name : Nat → String} {probes n : Nat}
    (h : firstFree used name probes n ∈ used) :
    ∀ i ≤ probes, name (n + i) ∈ used := by
  induction probes generalizing n with
  | zero =>
    intro i hi
    obtain rfl := Nat.le_zero.1 hi
    exact h
  | succ probes ih =>
    rw [firstFree] at h
    split at h
    · next hn =>
      intro i hi
      cases i with
      | zero => exact hn
      | succ i =>
        have := ih h i (by omega)
        -- The later variants are counted from the next number on.
        rwa [show n + 1 + i = n + (i + 1) by omega] at this
    · next hn => exact absurd h hn

/-- Distinct names that are all used are no more than there are used names. -/
theorem le_card_of_forall_mem {used : List String} {name : Nat → String}
    (hname : Function.Injective name) {n count : Nat} (h : ∀ i < count, name (n + i) ∈ used) :
    count ≤ used.toFinset.card := by
  have hinj : Function.Injective fun i => name (n + i) := fun i j hij => by
    have := hname hij
    omega
  calc count = ((Finset.range count).image fun i => name (n + i)).card := by
        rw [Finset.card_image_of_injective _ hinj, Finset.card_range]
    _ ≤ used.toFinset.card := by
        refine Finset.card_le_card (Finset.image_subset_iff.2 fun i hi => ?_)
        exact List.mem_toFinset.2 (h i (Finset.mem_range.1 hi))

/-- A search with as many probes as there are used names finds a free one. -/
theorem firstFree_notMem {used : List String} {name : Nat → String}
    (hname : Function.Injective name) (n : Nat) : firstFree used name used.length n ∉ used := by
  intro h
  -- Then all probed names are used; they are distinct, and one more than there are used names.
  have hall := mem_of_firstFree_mem h
  have hle := le_card_of_forall_mem hname fun i hi => hall i (Nat.lt_succ_iff.1 hi)
  have := used.toFinset_card_le
  omega

/-- What the search returns is one of the names that it goes through. -/
theorem firstFree_eq (used : List String) (name : Nat → String) (probes n : Nat) :
    ∃ i, firstFree used name probes n = name i := by
  induction probes generalizing n with
  | zero => exact ⟨n, rfl⟩
  | succ probes ih =>
    rw [firstFree]
    split
    · exact ih (n + 1)
    · exact ⟨n, rfl⟩

/-! ## One fresh name -/

/-- A name that is free stays as it is. -/
theorem fresh_of_notMem {sep base : String} {used : List String} (h : base ∉ used) :
    fresh sep base used = base := if_neg h

/-- A fresh name is the wanted one or a variant of it. -/
theorem fresh_eq (sep base : String) (used : List String) :
    fresh sep base used = base ∨ ∃ n, fresh sep base used = numbered sep base n := by
  rw [fresh]
  split
  · exact Or.inr (firstFree_eq used (numbered sep base) used.length 2)
  · exact Or.inl rfl

/-- What a fresh name starts with. -/
theorem exists_cons_fresh {sep base : String} (used : List String) {c : Char} {cs : List Char}
    (h : base.toList = c :: cs) : ∃ cs', (fresh sep base used).toList = c :: cs' := by
  rcases fresh_eq sep base used with heq | ⟨n, heq⟩
  · exact ⟨cs, by rw [heq, h]⟩
  · exact ⟨cs ++ (sep.toList ++ n.repr.toList), by simp [heq, numbered, h]⟩

/-- **A fresh name is none of the used ones.** -/
theorem fresh_notMem (sep base : String) (used : List String) : fresh sep base used ∉ used := by
  rw [fresh]
  split
  · exact firstFree_notMem (numbered_injective sep base) 2
  · assumption

/-- A fresh name has all characters of the wanted one. -/
theorem mem_fresh {c : Char} {sep base : String} (used : List String) (h : c ∈ base.toList) :
    c ∈ (fresh sep base used).toList := by
  rcases fresh_eq sep base used with heq | ⟨n, heq⟩
  · rwa [heq]
  · rw [heq, numbered, String.append_assoc, String.toList_append]
    exact List.mem_append_left _ h

/-- Which name is free does not depend on the order of the used ones. -/
theorem firstFree_perm {used used' : List String} (h : used.Perm used') (name : Nat → String)
    (probes n : Nat) : firstFree used name probes n = firstFree used' name probes n := by
  induction probes generalizing n with
  | zero => rfl
  | succ probes ih => simp only [firstFree, h.mem_iff, ih]

/-- The order of the used names does not matter for a fresh one. -/
theorem fresh_perm {used used' : List String} (h : used.Perm used') (sep base : String) :
    fresh sep base used = fresh sep base used' := by
  simp only [fresh, h.mem_iff, h.length_eq, firstFree_perm h]

/-! ## Lists of fresh names -/

@[simp] theorem length_freshAll (sep : String) (used candidates : List String) :
    (freshAll sep used candidates).length = candidates.length := by
  induction candidates generalizing used with
  | nil => rfl
  | cons base rest ih => simp [freshAll, ih]

/-- Every name of the list is a candidate or a variant of one. -/
theorem exists_of_mem_freshAll {sep name : String} {used candidates : List String}
    (h : name ∈ freshAll sep used candidates) :
    ∃ base ∈ candidates, name = base ∨ ∃ n, name = numbered sep base n := by
  induction candidates generalizing used with
  | nil => cases h
  | cons base rest ih =>
    rcases List.mem_cons.1 h with rfl | h
    · exact ⟨base, List.mem_cons_self, fresh_eq sep base used⟩
    · obtain ⟨base', hmem, heq⟩ := ih h
      exact ⟨base', List.mem_cons_of_mem base hmem, heq⟩

/-- No name of the list is one of the names used before. -/
theorem notMem_of_mem_freshAll {sep name : String} {used candidates : List String}
    (h : name ∈ freshAll sep used candidates) : name ∉ used := by
  induction candidates generalizing used with
  | nil => simp [freshAll] at h
  | cons base rest ih =>
    rw [freshAll, List.mem_cons] at h
    rcases h with rfl | h
    · exact fresh_notMem sep base used
    · exact fun hused => ih h (List.mem_cons_of_mem _ hused)

/-- Distinct names that are free stay as they are. -/
theorem freshAll_of_nodup {sep : String} {used candidates : List String}
    (h : candidates.Nodup) (hused : ∀ name ∈ candidates, name ∉ used) :
    freshAll sep used candidates = candidates := by
  induction candidates generalizing used with
  | nil => rfl
  | cons base rest ih =>
    obtain ⟨hbase, hrest⟩ := List.nodup_cons.1 h
    rw [List.forall_mem_cons] at hused
    rw [freshAll, fresh_of_notMem hused.1, ih hrest]
    intro name hname hmem
    -- A later name is neither the head, as the names are distinct, nor used before.
    rcases List.mem_cons.1 hmem with rfl | hmem
    · exact hbase hname
    · exact hused.2 name hname hmem

/-- **A list of fresh names has no repetitions.** -/
theorem nodup_freshAll (sep : String) (used candidates : List String) :
    (freshAll sep used candidates).Nodup := by
  induction candidates generalizing used with
  | nil => simp [freshAll]
  | cons base rest ih =>
    rw [freshAll, List.nodup_cons]
    exact ⟨fun h => notMem_of_mem_freshAll h List.mem_cons_self, ih _⟩

/-- The order of the used names does not matter for a list of fresh ones. -/
theorem freshAll_perm {used used' : List String} (h : used.Perm used') (sep : String)
    (candidates : List String) :
    freshAll sep used candidates = freshAll sep used' candidates := by
  induction candidates generalizing used used' with
  | nil => rfl
  | cons base rest ih => simp only [freshAll, fresh_perm h, ih (h.cons _)]

/-- The candidates of a list go on where those before them stop. -/
theorem freshAll_append (sep : String) (used before after : List String) :
    freshAll sep used (before ++ after) =
      freshAll sep used before ++ freshAll sep (freshAll sep used before ++ used) after := by
  induction before generalizing used with
  | nil => rfl
  | cons base rest ih =>
    simp only [List.cons_append, freshAll, ih, List.cons.injEq, true_and]
    -- The first name stands at another place among the used ones.
    exact congrArg _ (freshAll_perm List.perm_middle sep after)

/-! ## Candidates that are taken -/

/-- The candidates that are not free when their turn comes. -/
def clashes (sep : String) : (used candidates : List String) → List String
  | _, [] => []
  | used, base :: rest =>
    let later := clashes sep (fresh sep base used :: used) rest
    if base ∈ used then base :: later else later

/-- The order of the used names does not matter for which candidates are taken. -/
theorem clashes_perm {used used' : List String} (h : used.Perm used') (sep : String)
    (candidates : List String) :
    clashes sep used candidates = clashes sep used' candidates := by
  induction candidates generalizing used used' with
  | nil => rfl
  | cons base rest ih => simp only [clashes, fresh_perm h, ih (h.cons _), h.mem_iff]

/-- A candidate is taken if it was used at the start, or if an earlier candidate was given it. -/
theorem mem_clashes_iff {sep name : String} {used candidates : List String} :
    name ∈ clashes sep used candidates ↔ ∃ before after, candidates = before ++ name :: after ∧
      name ∈ freshAll sep used before ++ used := by
  induction candidates generalizing used with
  | nil => simp [clashes]
  | cons base rest ih =>
    have hlater : name ∈ clashes sep (fresh sep base used :: used) rest ↔
        ∃ before after, rest = before ++ name :: after ∧
          name ∈ freshAll sep used (base :: before) ++ used := by
      rw [ih]
      simp only [freshAll, List.cons_append, List.mem_cons, List.mem_append]
      simp only [or_left_comm]
    rw [clashes]
    constructor
    · intro h
      -- Either the name is the head, which was taken from the start, or it clashes later.
      by_cases hhead : base ∈ used ∧ name = base
      · exact ⟨[], rest, by rw [hhead.2]; rfl, by rw [hhead.2]; exact hhead.1⟩
      · have hmem : name ∈ clashes sep (fresh sep base used :: used) rest := by
          split at h
          · next hbase =>
            exact (List.mem_cons.1 h).resolve_left fun heq => hhead ⟨hbase, heq⟩
          · exact h
        obtain ⟨before, after, hrest, hname⟩ := hlater.1 hmem
        exact ⟨base :: before, after, by rw [hrest]; rfl, hname⟩
    · rintro ⟨before, after, heq, hname⟩
      cases before with
      | nil =>
        obtain ⟨rfl, rfl⟩ := List.cons.inj heq
        -- Nothing comes before the head, so it was used at the start.
        rw [if_pos (by simpa [freshAll] using hname)]
        exact List.mem_cons_self
      | cons base' before =>
        obtain ⟨rfl, hrest⟩ := List.cons.inj heq
        have hmem := hlater.2 ⟨before, after, hrest, hname⟩
        split
        · exact List.mem_cons_of_mem _ hmem
        · exact hmem

/-- If no candidate is taken, all of them are given. -/
theorem freshAll_of_clashes_eq_nil {sep : String} {used candidates : List String}
    (h : clashes sep used candidates = []) : freshAll sep used candidates = candidates := by
  induction candidates generalizing used with
  | nil => rfl
  | cons base rest ih =>
    rw [clashes] at h
    split at h
    · cases h
    · next hbase => rw [freshAll, ih h, fresh_of_notMem hbase]

/-- Where no name is used at the start, a candidate is taken exactly if one occurs twice: the first
that is taken has been given as it is. -/
theorem clashes_eq_nil_iff {sep : String} {candidates : List String} :
    clashes sep [] candidates = [] ↔ candidates.Nodup := by
  constructor
  · intro h
    rw [← freshAll_of_clashes_eq_nil h]
    exact nodup_freshAll sep [] candidates
  · intro h
    refine List.eq_nil_iff_forall_not_mem.2 fun name hname => ?_
    obtain ⟨before, after, rfl, hgiven⟩ := mem_clashes_iff.1 hname
    obtain ⟨hbefore, -, hapart⟩ := List.nodup_append.1 h
    rw [freshAll_of_nodup hbefore fun _ _ => List.not_mem_nil, List.append_nil] at hgiven
    exact hapart name hgiven name List.mem_cons_self rfl

end AgentFlow.Text
