import AgentFlow.Proofs.Text.Runs
import AgentFlow.Proofs.Text.SameCase
import Mathlib.Data.List.Forall2

/-!
# Whole words are maximal runs

A text is searched place by place: at each, whether a word character stands directly before it, and
which words start there. What is found so are the maximal runs of word characters that are a word of
the vocabulary up to case (`mentionsAny_eq_true_iff_exists_run`). Nothing is therefore found across
a character that belongs to no word (`mentionsAny_append_cons`).
-/

namespace AgentFlow.Text

variable {vocabulary : List (List Char)} {joined : Bool} {letter c sep : Char}
  {word run cs before after : List Char}

/-- `run` is the word up to case. -/
def SameWord (word run : List Char) : Prop := List.Forall₂ SameCase word run

instance (word run : List Char) : Decidable (SameWord word run) :=
  inferInstanceAs (Decidable (List.Forall₂ SameCase word run))

/-- The vocabulary consists of words in small letters. -/
def IsVocabulary (vocabulary : List (List Char)) : Prop :=
  ∀ word ∈ vocabulary, word ≠ [] ∧ ∀ letter ∈ word, letter.isLower = true

/-! ## Letters of words are word characters -/

/-- What is a small letter up to case is a word character: beyond ASCII, there are four of these. -/
theorem isWordChar_of_sameCase (hletter : letter.isLower = true) (h : SameCase letter c) :
    isWordChar c = true := by
  have hsame : sameLetter letter c = true := (sameLetter_iff hletter).2 h
  rcases Nat.lt_or_ge c.toNat 128 with hc | hc
  · rw [sameLetter_iff_toLower_eq hc] at hsame
    rw [← hsame] at hletter
    exact ascii_forall (P := fun c => c.toLower.isLower = true → isWordChar c = true)
      (by decide +kernel) hc hletter
  · have hcases : otherCases.all isWordChar = true := by decide +kernel
    exact List.all_eq_true.1 hcases c (mem_otherCases_of_sameLetter hletter hc hsame)

/-- A word up to case consists of word characters. -/
theorem SameWord.isWordChar (hword : ∀ letter ∈ word, letter.isLower = true)
    (h : SameWord word run) : ∀ c ∈ run, isWordChar c = true := by
  induction h with
  | nil => simp
  | cons hsame _ ih =>
    rw [List.forall_mem_cons] at hword ⊢
    exact ⟨isWordChar_of_sameCase hword.1 hsame, ih hword.2⟩

theorem SameWord.ne_nil (hword : word ≠ []) (h : SameWord word run) : run ≠ [] := by
  rintro rfl
  exact hword (List.forall₂_nil_right_iff.1 h)

/-! ## At one place -/

/-- The rest of the text behind a word is found exactly if the text starts with it up to case. -/
theorem afterWord?_eq_some_iff (hword : ∀ letter ∈ word, letter.isLower = true) :
    afterWord? word cs = some after ↔ ∃ run, cs = run ++ after ∧ SameWord word run := by
  fun_induction afterWord? word cs with
  | case1 cs => simp [SameWord]
  | case2 letter word => simp [SameWord, List.forall₂_cons_left_iff]
  -- The first letters agree, so both sides go on with the rest of the word.
  | case3 letter word c cs hsame ih =>
    obtain ⟨hletter, hrest⟩ := List.forall_mem_cons.1 hword
    have hsame : SameCase letter c := (sameLetter_iff hletter).1 hsame
    rw [ih hrest]
    constructor
    · rintro ⟨run, rfl, hrun⟩
      exact ⟨c :: run, rfl, .cons hsame hrun⟩
    · rintro ⟨run, hcs, hrun⟩
      obtain ⟨d, rest, -, hrest, rfl⟩ := List.forall₂_cons_left_iff.1 hrun
      exact ⟨rest, (List.cons.inj hcs).2, hrest⟩
  -- They do not, and no run starts with another character than the text does.
  | case4 letter word c cs hsame =>
    obtain ⟨hletter, -⟩ := List.forall_mem_cons.1 hword
    rw [sameLetter_iff hletter] at hsame
    refine iff_of_false nofun ?_
    rintro ⟨run, hcs, hrun⟩
    obtain ⟨d, run, hd, -, rfl⟩ := List.forall₂_cons_left_iff.1 hrun
    obtain rfl := (List.cons.inj hcs).1
    exact hsame hd

/-- A word starts at a place if it stands there as a whole: no word character follows. -/
theorem startsWithWord_iff (hword : ∀ letter ∈ word, letter.isLower = true) :
    startsWithWord cs word = true ↔ ∃ run after, cs = run ++ after ∧ SameWord word run ∧
      ∀ c ∈ after.head?, isWordChar c = false := by
  have hstarts : startsWithWord cs word = true ↔ ∃ after, afterWord? word cs = some after ∧
      ∀ c ∈ after.head?, isWordChar c = false := by
    rw [startsWithWord]
    split <;> simp_all
  rw [hstarts]
  constructor
  · rintro ⟨after, hafter, hhead⟩
    obtain ⟨run, hcs, hrun⟩ := (afterWord?_eq_some_iff hword).1 hafter
    exact ⟨run, after, hcs, hrun, hhead⟩
  · rintro ⟨run, after, hcs, hrun, hhead⟩
    exact ⟨after, (afterWord?_eq_some_iff hword).2 ⟨run, hcs, hrun⟩, hhead⟩

/-! ## At every place -/

/-- A word character stands directly behind `before`, or, if that is empty, `joined` says so. -/
def endsJoined (joined : Bool) (before : List Char) : Bool :=
  before.foldl (fun _ c => isWordChar c) joined

theorem endsJoined_false : endsJoined false before = false ↔
    ∀ c ∈ before.getLast?, isWordChar c = false := by
  rcases List.eq_nil_or_concat before with rfl | ⟨front, c, rfl⟩ <;> simp [endsJoined]

/-- A word of the vocabulary stands between `before` and `after` as a whole. -/
def StandsBetween (vocabulary : List (List Char)) (joined : Bool)
    (before run after : List Char) : Prop :=
  endsJoined joined before = false ∧ (∃ word ∈ vocabulary, SameWord word run) ∧
    ∀ c ∈ after.head?, isWordChar c = false

/-- The search at one place: a word is found there exactly if it stands there between what is before
and what is behind. -/
theorem any_startsWithWord_iff (hvocabulary : IsVocabulary vocabulary) :
    (!joined && vocabulary.any (startsWithWord cs)) = true ↔
      ∃ run after, cs = run ++ after ∧ StandsBetween vocabulary joined [] run after := by
  rw [Bool.and_eq_true, Bool.not_eq_true', List.any_eq_true]
  constructor
  · rintro ⟨hjoined, word, hword, hstarts⟩
    obtain ⟨run, after, hcs, hrun, hhead⟩ :=
      (startsWithWord_iff (hvocabulary word hword).2).1 hstarts
    exact ⟨run, after, hcs, hjoined, ⟨word, hword, hrun⟩, hhead⟩
  · rintro ⟨run, after, hcs, hjoined, ⟨word, hword, hrun⟩, hhead⟩
    exact ⟨hjoined, word, hword,
      (startsWithWord_iff (hvocabulary word hword).2).2 ⟨run, after, hcs, hrun, hhead⟩⟩

/-- The search at every place: a word stands somewhere in the text as a whole. -/
theorem mentionsAny_eq_true_iff (hvocabulary : IsVocabulary vocabulary) :
    mentionsAny vocabulary joined cs = true ↔ ∃ before run after,
      cs = before ++ (run ++ after) ∧ StandsBetween vocabulary joined before run after := by
  induction cs generalizing joined with
  | nil =>
    -- No word is empty, so none stands in the empty text.
    refine iff_of_false Bool.false_ne_true ?_
    rintro ⟨before, run, after, hcs, -, ⟨word, hword, hrun⟩, -⟩
    obtain ⟨-, hparts⟩ := List.append_eq_nil_iff.1 hcs.symm
    exact hrun.ne_nil (hvocabulary word hword).1 (List.append_eq_nil_iff.1 hparts).1
  -- Either the word starts here, with nothing before it, or at a later place.
  | cons c cs ih =>
    rw [mentionsAny, Bool.or_eq_true, any_startsWithWord_iff hvocabulary, ih]
    constructor
    · rintro (⟨run, after, hcs, hstands⟩ | ⟨before, run, after, rfl, hstands⟩)
      · exact ⟨[], run, after, hcs, hstands⟩
      · exact ⟨c :: before, run, after, rfl, hstands⟩
    · rintro ⟨before, run, after, hcs, hstands⟩
      cases before with
      | nil => exact .inl ⟨run, after, hcs, hstands⟩
      | cons d before =>
        obtain ⟨rfl, rfl⟩ := List.cons.inj hcs
        exact .inr ⟨before, run, after, rfl, hstands⟩

/-- **A text mentions a word of the vocabulary exactly if one of its maximal runs of word characters
is such a word up to case.** -/
theorem mentionsAny_eq_true_iff_exists_run (hvocabulary : IsVocabulary vocabulary) :
    mentionsAny vocabulary false cs = true ↔
      ∃ run ∈ runs isWordChar cs, ∃ word ∈ vocabulary, SameWord word run := by
  rw [mentionsAny_eq_true_iff hvocabulary]
  constructor
  · rintro ⟨before, run, after, rfl, hbefore, ⟨word, hword, hrun⟩, hafter⟩
    obtain ⟨hne, hletters⟩ := hvocabulary word hword
    refine ⟨run, mem_runs_iff.2 ⟨hrun.ne_nil hne, hrun.isWordChar hletters, ?_⟩, word, hword, hrun⟩
    exact ⟨before, after, (List.append_assoc ..).symm, endsJoined_false.1 hbefore, hafter⟩
  · rintro ⟨run, hmem, hword⟩
    obtain ⟨-, -, before, after, hcs, hbefore, hafter⟩ := mem_runs_iff.1 hmem
    rw [List.append_assoc] at hcs
    exact ⟨before, run, after, hcs, endsJoined_false.2 hbefore, hword, hafter⟩

/-- What belongs to no word separates what is mentioned before it from what is mentioned behind. -/
theorem mentionsAny_append_cons (hvocabulary : IsVocabulary vocabulary)
    (hsep : isWordChar sep = false) (before after : List Char) :
    mentionsAny vocabulary false (before ++ sep :: after) =
      (mentionsAny vocabulary false before || mentionsAny vocabulary false after) := by
  rw [Bool.eq_iff_iff, Bool.or_eq_true, mentionsAny_eq_true_iff_exists_run hvocabulary,
    mentionsAny_eq_true_iff_exists_run hvocabulary, mentionsAny_eq_true_iff_exists_run hvocabulary,
    runs_append_cons hsep]
  simp only [List.mem_append, or_and_right, exists_or]

end AgentFlow.Text
