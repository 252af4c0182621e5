import AgentFlow.Text.WholeWord
import AgentFlow.Proofs.Text.Names

/-!
# Words that are not in a vocabulary

A word in front of a text hides nothing and mentions nothing, as long as no word of the vocabulary
starts as it does (`mentionsAny_append`).
-/

namespace AgentFlow.Text

variable {vocabulary : List (List Char)} {c : Char} {w cs : List Char}

/-- Names consist of word characters. -/
theorem isWordChar_of_isNameChar (h : isNameChar c = true) : isWordChar c = true :=
  isNameChar_forall (P := fun c => isWordChar c = true) (by decide +kernel) h

/-- No word of the vocabulary starts with the character, in whatever case. -/
def StartsNone (vocabulary : List (List Char)) (c : Char) : Prop :=
  ∀ word ∈ vocabulary, ∃ letter rest, word = letter :: rest ∧ sameLetter letter c = false

theorem any_startsWithWord_eq_false (h : StartsNone vocabulary c) :
    vocabulary.any (startsWithWord (c :: cs)) = false := by
  rw [List.any_eq_false]
  intro word hword
  obtain ⟨letter, rest, rfl, hletter⟩ := h word hword
  simp [startsWithWord, afterWord?, hletter]

/-- Behind a word character, word characters are passed over. -/
theorem mentionsAny_true_append (hw : ∀ c ∈ w, isWordChar c = true) :
    mentionsAny vocabulary true (w ++ cs) = mentionsAny vocabulary true cs := by
  induction w with
  | nil => rfl
  | cons c w ih =>
    obtain ⟨hc, hw⟩ := List.forall_mem_cons.1 hw
    rw [List.cons_append, mentionsAny, hc, ih hw]
    rfl

/-- A word in front that starts as no word of the vocabulary does is passed over. -/
theorem mentionsAny_append (hc : isWordChar c = true) (hw : ∀ c ∈ w, isWordChar c = true)
    (hnone : StartsNone vocabulary c) :
    mentionsAny vocabulary false (c :: w ++ cs) = mentionsAny vocabulary true cs := by
  rw [List.cons_append, mentionsAny, any_startsWithWord_eq_false hnone, hc,
    mentionsAny_true_append hw]
  rfl

/-- What is mentioned where a word goes on before the text is mentioned by the text itself. -/
theorem mentionsAny_of_true (h : mentionsAny vocabulary true cs = true) :
    mentionsAny vocabulary false cs = true := by
  cases cs with
  | nil => cases h
  | cons c cs =>
    rw [mentionsAny] at h ⊢
    rw [Bool.not_true, Bool.false_and, Bool.false_or] at h
    rw [h, Bool.or_true]

end AgentFlow.Text
