import AgentFlow.Proofs.Text.Pieces
import AgentFlow.Text.Slug
import Mathlib.Data.List.DropRight

/-!
# Trimmed texts

What trimming leaves. Main facts: a text is left alone exactly if neither end of it is blank
(`trimBy_eq_self_iff`), nothing is left exactly of a blank text (`trim_eq_empty_iff`), trimming
twice is trimming once (`trim_trim`), and no character of a slug is blank
(`not_isBlank_of_mem_slug`).
-/

namespace AgentFlow.Text

variable {p : Char → Bool} {cs : List Char}

/-! ## Sequences of characters -/

theorem trimBy_eq_rdropWhile (p : Char → Bool) (cs : List Char) :
    trimBy p cs = (cs.dropWhile p).rdropWhile p := rfl

theorem trimBy_sublist (p : Char → Bool) (cs : List Char) : (trimBy p cs).Sublist cs := by
  rw [trimBy_eq_rdropWhile]
  exact (List.rdropWhile_prefix p _).sublist.trans (List.dropWhile_sublist p)

/-- Dropping at the front keeps every element that it does not look for. -/
theorem mem_dropWhile {c : Char} (h : c ∈ cs) (hc : p c = false) : c ∈ cs.dropWhile p := by
  rw [← List.takeWhile_append_dropWhile (p := p) (l := cs), List.mem_append] at h
  refine h.resolve_left fun hpre => ?_
  rw [List.mem_takeWhile_imp hpre] at hc
  exact absurd hc (by simp)

/-- Trimming keeps every element that it does not look for, wherever it stands. -/
theorem mem_trimBy {c : Char} (h : c ∈ cs) (hc : p c = false) : c ∈ trimBy p cs := by
  rw [trimBy, List.mem_reverse]
  exact mem_dropWhile (List.mem_reverse.2 (mem_dropWhile h hc)) hc

/-- Nothing is left exactly if all of it is looked for. -/
theorem trimBy_eq_nil_iff : trimBy p cs = [] ↔ ∀ c ∈ cs, p c = true := by
  constructor
  · intro h c hc
    -- An element that is not looked for would be left.
    by_contra hne
    have := mem_trimBy hc (Bool.eq_false_iff.2 hne)
    rw [h] at this
    exact absurd this List.not_mem_nil
  · intro h
    rw [trimBy_eq_rdropWhile, List.dropWhile_eq_nil_iff.2 h, List.rdropWhile_nil]

/-- A list is trimmed exactly if neither of its ends is looked for. -/
theorem trimBy_eq_self_iff :
    trimBy p cs = cs ↔
      (∀ c ∈ cs.head?, p c = false) ∧ ∀ c ∈ cs.getLast?, p c = false := by
  have hends : cs.dropWhile p = cs ∧ cs.rdropWhile p = cs ↔
      (∀ c ∈ cs.head?, p c = false) ∧ ∀ c ∈ cs.getLast?, p c = false := by
    rw [List.dropWhile_eq_self_iff, List.rdropWhile_eq_self_iff]
    cases cs with
    | nil => simp
    | cons a rest => simp [List.getLast?_eq_some_getLast]
  rw [← hends, trimBy_eq_rdropWhile]
  constructor
  · intro h
    -- Both steps only drop, so neither of them can have dropped anything.
    have hlen := (List.rdropWhile_prefix p (cs.dropWhile p)).length_le
    rw [h] at hlen
    have hfront : cs.dropWhile p = cs := (List.dropWhile_sublist p).eq_of_length_le hlen
    exact ⟨hfront, by rwa [hfront] at h⟩
  · rintro ⟨hfront, hback⟩
    rw [hfront, hback]

/-- What is left is trimmed. -/
theorem trimBy_trimBy (p : Char → Bool) (cs : List Char) :
    trimBy p (trimBy p cs) = trimBy p cs := by
  rw [trimBy_eq_self_iff]
  constructor
  · intro c hc
    -- The first element is the one at which dropping at the front stopped.
    have hpre := List.rdropWhile_prefix p (cs.dropWhile p)
    rw [← trimBy_eq_rdropWhile] at hpre
    obtain ⟨tail, htail⟩ := hpre
    have hhead : (cs.dropWhile p).head? = some c := by
      rw [← htail, List.head?_append, Option.mem_def.1 hc]
      rfl
    have := List.head?_dropWhile_not p cs
    rw [hhead] at this
    simpa using this
  · intro c hc
    -- The last one is the one at which dropping at the back stopped.
    rw [trimBy_eq_rdropWhile] at hc
    obtain ⟨hne, hlast⟩ := List.mem_getLast?_eq_getLast hc
    have := List.rdropWhile_last_not p (cs.dropWhile p) hne
    rw [← hlast] at this
    simpa using this

/-! ## Texts -/

def IsTrimmed (s : String) : Prop := trim s = s

instance (s : String) : Decidable (IsTrimmed s) := inferInstanceAs (Decidable (trim s = s))

def endsBlank (s : String) : Bool := s.toList.getLast?.any isBlank

@[simp] theorem toList_trim (s : String) : (trim s).toList = trimBy isBlank s.toList :=
  String.toList_ofList

@[simp] theorem trim_trim (s : String) : trim (trim s) = trim s := by
  rw [← String.toList_inj, toList_trim, toList_trim, trimBy_trimBy]

theorem isTrimmed_trim (s : String) : IsTrimmed (trim s) := trim_trim s

/-- Nothing is left of a text exactly if it is blank. -/
theorem trim_eq_empty_iff {s : String} : trim s = "" ↔ ∀ c ∈ s.toList, isBlank c = true := by
  rw [← String.toList_inj, toList_trim]
  exact trimBy_eq_nil_iff

/-- A text that starts with a character that is not blank can only be trimmed at its end. -/
theorem isTrimmed_iff_endsBlank {s : String} {c : Char} (h : s.toList.head? = some c)
    (hc : isBlank c = false) : IsTrimmed s ↔ endsBlank s = false := by
  rw [IsTrimmed, ← String.toList_inj, toList_trim, trimBy_eq_self_iff]
  simp only [h, Option.mem_def, Option.some.injEq, forall_eq', hc, true_and, endsBlank]
  cases s.toList.getLast? <;> simp

/-! ## Folded texts -/

theorem not_isBlank_of_mem_words {s word : String} {c : Char} (hword : word ∈ words s)
    (hc : c ∈ word.toList) : isBlank c = false := by
  obtain ⟨run, hrun, rfl⟩ := List.mem_map.1 hword
  rw [String.toList_ofList] at hc
  have hmem : c ∈ (runs (fun c => !isBlank c) s.toList).flatten :=
    List.mem_flatten.2 ⟨run, hrun, hc⟩
  rw [flatten_runs] at hmem
  simpa using (List.mem_filter.1 hmem).2

/-- A text on one line has no blanks but spaces. -/
theorem eq_space_or_of_mem_oneLine {s : String} :
    ∀ c ∈ (oneLine s).toList, c = ' ' ∨ isBlank c = false := by
  refine forall_mem_intercalate (by simp) fun word hword c hc => ?_
  exact .inr (not_isBlank_of_mem_words hword hc)

/-! ## Slugs -/

theorem isBlank_eq_false_of_isSlugChar {c : Char} (h : isSlugChar c = true) :
    isBlank c = false := by
  simp only [isSlugChar, Bool.or_eq_true, Bool.and_eq_true, decide_eq_true_eq, Char.le_def,
    UInt32.le_iff_toNat_le] at h
  -- Slug characters lie between 0 and z, where no blank is.
  have hrange : 0x30 ≤ c.toNat ∧ c.toNat ≤ 0x7a := by
    rcases h with ⟨hlo, hhi⟩ | ⟨hlo, hhi⟩
    · exact ⟨le_trans (by decide) hlo, hhi⟩
    · exact ⟨hlo, le_trans hhi (by decide)⟩
  simp only [isBlank, isWhiteSpace, Bool.or_eq_false_iff, Bool.and_eq_false_iff,
    decide_eq_false_iff_not, beq_eq_false_iff_ne]
  omega

theorem mem_collapse {c : Char} {inGap : Bool} (h : c ∈ collapse inGap cs) :
    isSlugChar c = true ∨ c = '_' := by
  induction cs generalizing inGap with
  | nil => simp [collapse] at h
  | cons a rest ih =>
    rw [collapse] at h
    split at h
    · next ha =>
      rcases List.mem_cons.1 h with rfl | h
      · exact Or.inl ha
      · exact ih h
    · split at h
      · exact ih h
      · rcases List.mem_cons.1 h with rfl | h
        · exact Or.inr rfl
        · exact ih h

/-- A slug holds nothing but slug characters and underscores. -/
theorem mem_slug {c : Char} {s : String} (h : c ∈ (slug s).toList) :
    isSlugChar c = true ∨ c = '_' := by
  rw [slug, String.toList_ofList, slugChars] at h
  exact mem_collapse ((trimBy_sublist _ _).mem h)

theorem not_isBlank_of_mem_slug {c : Char} {s : String} (h : c ∈ (slug s).toList) :
    isBlank c = false := by
  rcases mem_slug h with hc | rfl
  · exact isBlank_eq_false_of_isSlugChar hc
  · rfl

end AgentFlow.Text
