import AgentFlow.Text.Pieces
import Mathlib.Data.List.Basic

/-!
# Cutting what was joined

Cutting at a separator cuts the two sides of it by themselves (`pieces_append_cons`). So where lines
without a separator in them stand at the end of a text, each of them is a piece, whatever comes
before (`exists_pieces_flatMap`).
-/

namespace AgentFlow.Text

variable {isSeparator : Char → Bool} {sep : Char}

theorem pieces_ne_nil (isSeparator : Char → Bool) (cs : List Char) :
    pieces isSeparator cs ≠ [] := by
  cases cs with
  | nil => simp [pieces]
  | cons c rest =>
    rw [pieces]
    split
    · simp
    · split <;> simp

/-- Without a separator, the text is its only piece. -/
theorem pieces_eq_singleton {cs : List Char} (h : ∀ c ∈ cs, isSeparator c = false) :
    pieces isSeparator cs = [cs] := by
  induction cs with
  | nil => rfl
  | cons c rest ih =>
    obtain ⟨hc, hrest⟩ := List.forall_mem_cons.1 h
    simp [pieces, hc, ih hrest]

/-- A separator cuts: the sides of it have pieces of their own. -/
theorem pieces_append_cons (hsep : isSeparator sep = true) (before after : List Char) :
    pieces isSeparator (before ++ sep :: after) =
      pieces isSeparator before ++ pieces isSeparator after := by
  induction before with
  | nil => simp [pieces, hsep]
  | cons c rest ih =>
    rw [List.cons_append, pieces, ih]
    split
    · next hc => simp [pieces, hc]
    · next hc =>
      cases hrest : pieces isSeparator rest with
      | nil => exact absurd hrest (pieces_ne_nil _ _)
      -- The character joins the first piece, which is the same on both sides.
      | cons piece more => simp [pieces, hc, hrest]

/-! ## Joined lists -/

theorem intercalate_append_eq_flatMap {α : Type} (sep : List α) {parts : List (List α)}
    (h : parts ≠ []) : sep.intercalate parts ++ sep = parts.flatMap (· ++ sep) := by
  induction parts with
  | nil => exact absurd rfl h
  | cons part rest ih =>
    by_cases hrest : rest = []
    · simp [hrest]
    · rw [List.intercalate_cons_of_ne_nil hrest, List.flatMap_cons, ← ih hrest]
      simp

theorem intercalate_ne_nil {α : Type} (sep : List α) {parts : List (List α)}
    (h : ∀ part ∈ parts, part ≠ []) (hne : parts ≠ []) : sep.intercalate parts ≠ [] := by
  obtain ⟨part, rest, rfl⟩ := List.exists_cons_of_ne_nil hne
  have hpart : part ≠ [] := h part List.mem_cons_self
  by_cases hnil : rest = []
  · rwa [hnil, List.intercalate_singleton]
  · rw [List.intercalate_cons_of_ne_nil hnil]
    simp [hpart]

theorem intercalate_append {α : Type} (sep : List α) {parts more : List (List α)}
    (hparts : parts ≠ []) (hmore : more ≠ []) :
    sep.intercalate (parts ++ more) = sep.intercalate parts ++ sep ++ sep.intercalate more := by
  induction parts with
  | nil => exact absurd rfl hparts
  | cons part rest ih =>
    rw [List.cons_append, List.intercalate_cons_of_ne_nil (by simp [hmore])]
    by_cases hnil : rest = []
    · simp [hnil]
    · rw [ih hnil, List.intercalate_cons_of_ne_nil hnil]
      simp only [List.append_assoc]

/-- What is in no part and not in the separator is not in what they are joined to. -/
theorem notMem_intercalate {α : Type} {a : α} {sep : List α} {parts : List (List α)}
    (hsep : a ∉ sep) (h : ∀ part ∈ parts, a ∉ part) : a ∉ sep.intercalate parts := by
  induction parts with
  | nil => simp
  | cons part rest ih =>
    obtain ⟨hpart, hrest⟩ := List.forall_mem_cons.1 h
    by_cases hnil : rest = []
    · simpa [hnil] using hpart
    · rw [List.intercalate_cons_of_ne_nil hnil]
      simp [hpart, hsep, ih hrest]

theorem notMem_toList_intercalate {c : Char} {sep : String} {parts : List String}
    (hsep : c ∉ sep.toList) (h : ∀ part ∈ parts, c ∉ part.toList) :
    c ∉ (sep.intercalate parts).toList := by
  rw [String.toList_intercalate]
  exact notMem_intercalate hsep (by simpa using h)

theorem forall_mem_append {P : Char → Prop} {s t : String} (hs : ∀ c ∈ s.toList, P c)
    (ht : ∀ c ∈ t.toList, P c) : ∀ c ∈ (s ++ t).toList, P c := by
  intro c hc
  rw [String.toList_append, List.mem_append] at hc
  exact hc.elim (hs c) (ht c)

/-- What holds of the characters of the parts and of the separator holds of all of them. -/
theorem forall_mem_intercalate {P : Char → Prop} {sep : String} (hsep : ∀ c ∈ sep.toList, P c)
    {parts : List String} (h : ∀ part ∈ parts, ∀ c ∈ part.toList, P c) :
    ∀ c ∈ (sep.intercalate parts).toList, P c := by
  intro c
  contrapose
  intro hc
  exact notMem_toList_intercalate (fun hmem => hc (hsep c hmem))
    fun part hpart hmem => hc (h part hpart c hmem)

/-- The last part stands at the end. -/
theorem exists_intercalate_append_singleton {α : Type} (sep last : List α)
    (parts : List (List α)) : ∃ before, sep.intercalate (parts ++ [last]) = before ++ last := by
  induction parts with
  | nil => exact ⟨[], by simp⟩
  | cons part rest ih =>
    obtain ⟨before, heq⟩ := ih
    refine ⟨part ++ sep ++ before, ?_⟩
    rw [List.cons_append, List.intercalate_cons_of_ne_nil (by simp), heq]
    simp

/-! ## Lines

Joining by a separator and cutting at it undo each other, as long as no line holds a separator. -/

theorem pieces_flatMap {lines : List (List Char)} (hsep : isSeparator sep = true)
    (h : ∀ line ∈ lines, ∀ c ∈ line, isSeparator c = false) :
    pieces isSeparator (lines.flatMap (· ++ [sep])) = lines ++ [[]] := by
  induction lines with
  | nil => rfl
  | cons line rest ih =>
    obtain ⟨hline, hrest⟩ := List.forall_mem_cons.1 h
    rw [List.flatMap_cons, List.append_assoc, List.singleton_append, pieces_append_cons hsep,
      pieces_eq_singleton hline, ih hrest]
    rfl

/-- Lines that are joined by line ends come apart again. -/
theorem pieces_intercalate {lines : List (List Char)} (hsep : isSeparator sep = true)
    (h : ∀ line ∈ lines, ∀ c ∈ line, isSeparator c = false) (hne : lines ≠ []) :
    pieces isSeparator ([sep].intercalate lines) = lines := by
  induction lines with
  | nil => exact absurd rfl hne
  | cons line rest ih =>
    obtain ⟨hline, hrest⟩ := List.forall_mem_cons.1 h
    by_cases hnil : rest = []
    · rw [hnil, List.intercalate_singleton, pieces_eq_singleton hline]
    · rw [List.intercalate_cons_of_ne_nil hnil, List.append_assoc, List.singleton_append,
        pieces_append_cons hsep, pieces_eq_singleton hline, ih hrest hnil]
      rfl

/-- Lines at the end are pieces, whatever comes before them. -/
theorem exists_pieces_flatMap (isSeparator : Char → Bool) (hsep : isSeparator sep = true)
    {lines : List (List Char)} (before : List (List Char))
    (h : ∀ line ∈ lines, ∀ c ∈ line, isSeparator c = false) :
    ∃ earlier, pieces isSeparator ((before ++ lines).flatMap (· ++ [sep])) =
      earlier ++ (lines ++ [[]]) := by
  induction before with
  | nil => exact ⟨[], pieces_flatMap hsep h⟩
  | cons part rest ih =>
    obtain ⟨earlier, heq⟩ := ih
    refine ⟨pieces isSeparator part ++ earlier, ?_⟩
    rw [List.cons_append, List.flatMap_cons, List.append_assoc, List.singleton_append,
      pieces_append_cons hsep, heq, List.append_assoc]

end AgentFlow.Text
