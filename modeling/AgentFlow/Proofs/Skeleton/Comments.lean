import AgentFlow.Proofs.Skeleton.Wiring

/-!
# Comments keep to their lines

What ends a line in a target language is blank and no space. The texts of the comments that a
program has besides its docstrings have no blanks but spaces, whatever the texts of the graph are.
-/

namespace AgentFlow.Skeleton

open Text

variable {s t : String}

/-- The text has no blanks but spaces. -/
def IsFlat (s : String) : Prop := ∀ c ∈ s.toList, c = ' ' ∨ isBlank c = false

/-- The test for fixed texts. -/
theorem isFlat_of_all (h : (s.toList.all fun c => c == ' ' || !isBlank c) = true) : IsFlat s := by
  intro c hc
  simpa using List.all_eq_true.1 h c hc

theorem IsFlat.append (hs : IsFlat s) (ht : IsFlat t) : IsFlat (s ++ t) := forall_mem_append hs ht

theorem IsFlat.intercalate {parts : List String} (h : ∀ part ∈ parts, IsFlat part) :
    IsFlat (", ".intercalate parts) := forall_mem_intercalate (isFlat_of_all rfl) h

/-! ## Names and literals -/

theorem isFlat_name (h : IsName s) : IsFlat s := by
  intro c hc
  -- names are ASCII, so all their characters can be tried
  exact isNameChar_forall (P := fun c => c = ' ' ∨ isBlank c = false)
    (by decide +kernel) (h.chars c hc)

/-- A literal is printable ASCII, and the only blank of that is the space. -/
theorem isFlat_literal (s : String) : IsFlat (literal s) := by
  intro c hc
  rw [toList_literal] at hc
  have hprintable := isPrintableAscii_of_mem_literalChars hc
  have hlt : c.toNat < 128 := by
    rw [isPrintableAscii, Bool.and_eq_true, decide_eq_true_eq, decide_eq_true_eq] at hprintable
    omega
  revert hprintable
  exact ascii_forall (P := fun c => isPrintableAscii c = true → c = ' ' ∨ isBlank c = false)
    (by decide +kernel) hlt

theorem isFlat_literals (texts : List String) : IsFlat (", ".intercalate (texts.map literal)) :=
  .intercalate (List.forall_mem_map.2 fun text _ => isFlat_literal text)

theorem isFlat_listLiteral (texts : List String) : IsFlat (listLiteral texts) :=
  ((isFlat_of_all rfl).append (isFlat_literals texts)).append (isFlat_of_all rfl)

/-! ## Texts of comments -/

/-- A title is the key of its node or one line of the label. -/
theorem isFlat_title {q : PlannedNode} (h : IsName q.key) : IsFlat (title q) := by
  rw [title]
  split
  · exact isFlat_name h
  · exact eq_space_or_of_mem_oneLine

theorem isFlat_todoNote (h : IsFlat s) : IsFlat (todoNote s) :=
  ((isFlat_of_all rfl).append h).append (isFlat_of_all rfl)

/-- The routes of a branch are listed as literals. -/
theorem isFlat_returnNote (b : Branch) : IsFlat (returnNote b) := by
  unfold returnNote
  rw [routeLiterals_eq_map]
  exact (isFlat_of_all rfl).append (isFlat_literals _)

theorem isFlat_fallbackNote : IsFlat fallbackNote := isFlat_of_all rfl

theorem isFlat_renamedNote (key : String) : IsFlat (renamedNote key) :=
  ((isFlat_of_all rfl).append (isFlat_literal key)).append (isFlat_of_all rfl)

theorem isFlat_unreachableNote {keys : List String} (h : ∀ key ∈ keys, IsName key) :
    IsFlat (unreachableNote keys) :=
  (isFlat_of_all rfl).append (.intercalate fun key hkey => isFlat_name (h key hkey))

end AgentFlow.Skeleton
