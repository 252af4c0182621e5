import AgentFlow.Proofs.Text.Trimming
import AgentFlow.Skeleton.Python

/-!
# Texts in docstrings

A string between three quotes ends at the first three quotes in a row, where a backslash takes the
character behind it along. `Spells` says that a written text means another one wherever it stands in
such a string, as long as no quote follows it. An escaped text spells the text (`spells_docText`),
and what spells its meaning piece by piece does so as a whole.
-/

namespace AgentFlow.Skeleton.Python

open Text

/-! ## Strings between three quotes -/

/-- The characters up to the three quotes that close the string, and what follows these. -/
def readDoc : List Char → Option (List Char × List Char)
  | '\x22' :: '\x22' :: '\x22' :: rest => some ([], rest)
  | '\x5c' :: c :: rest => (readDoc rest).map (Prod.map ('\x5c' :: c :: ·) id)
  | c :: rest => (readDoc rest).map (Prod.map (c :: ·) id)
  | [] => none

/-- The text that the characters of a string mean. An escaped backslash or quote means itself; there
is no meaning if something else is escaped. -/
def docMeaning : List Char → Option (List Char)
  | '\x5c' :: '\x5c' :: rest => (docMeaning rest).map ('\x5c' :: ·)
  | '\x5c' :: '\x22' :: rest => (docMeaning rest).map ('\x22' :: ·)
  | '\x5c' :: _ => none
  | c :: rest => (docMeaning rest).map (c :: ·)
  | [] => some []

/-- Neither a quote nor a backslash. -/
def isPlainDoc (c : Char) : Bool := c != '\x22' && c != '\x5c'

/-- No character of the text needs to be escaped. -/
def IsPlainDoc (s : String) : Prop := ∀ c ∈ s.toList, isPlainDoc c = true

variable {c : Char} {cs rest p : List Char}

theorem isPlainDoc_iff : isPlainDoc c = true ↔ c ≠ '\x22' ∧ c ≠ '\x5c' := by simp [isPlainDoc]

theorem readDoc_escaped (c : Char) (rest : List Char) : readDoc ('\x5c' :: c :: rest) =
    (readDoc rest).map (Prod.map ('\x5c' :: c :: ·) id) := rfl

theorem docMeaning_backslash (rest : List Char) :
    docMeaning ('\x5c' :: '\x5c' :: rest) = (docMeaning rest).map ('\x5c' :: ·) := rfl

theorem docMeaning_quote (rest : List Char) :
    docMeaning ('\x5c' :: '\x22' :: rest) = (docMeaning rest).map ('\x22' :: ·) := rfl

/-- A quote is a character like others where no two quotes follow it. -/
theorem readDoc_cons (hc : c ≠ '\x5c') (hrest : c = '\x22' → ¬ ['\x22', '\x22'] <+: rest) :
    readDoc (c :: rest) = (readDoc rest).map (Prod.map (c :: ·) id) := by
  rw [readDoc.eq_3]
  · rintro rest' rfl rfl
    exact hrest rfl ⟨rest', rfl⟩
  · rintro c' rest' rfl
    exact absurd rfl hc

theorem docMeaning_cons (hc : c ≠ '\x5c') :
    docMeaning (c :: rest) = (docMeaning rest).map (c :: ·) := by
  rw [docMeaning.eq_4]
  all_goals
    intros
    exact absurd ‹_› hc

theorem map_cons_readDoc (c : Char) (p rest : List Char) :
    ((readDoc rest).map (Prod.map (p ++ ·) id)).map (Prod.map (c :: ·) id) =
      (readDoc rest).map (Prod.map (c :: p ++ ·) id) := by
  rw [Option.map_map]
  rfl

/-- Plain characters are read over. -/
theorem readDoc_plain (hp : ∀ c ∈ p, isPlainDoc c = true) (rest : List Char) :
    readDoc (p ++ rest) = (readDoc rest).map (Prod.map (p ++ ·) id) := by
  induction p with
  | nil => exact (congrFun Option.map_id _).symm
  | cons c p ih =>
    obtain ⟨hc, hp⟩ := List.forall_mem_cons.1 hp
    obtain ⟨hquote, hbackslash⟩ := isPlainDoc_iff.1 hc
    rw [List.cons_append, readDoc_cons hbackslash fun h => absurd h hquote, ih hp, map_cons_readDoc]

/-- Plain characters mean themselves. -/
theorem docMeaning_plain (hp : ∀ c ∈ p, isPlainDoc c = true) (rest : List Char) :
    docMeaning (p ++ rest) = (docMeaning rest).map (p ++ ·) := by
  induction p with
  | nil => exact (congrFun Option.map_id _).symm
  | cons c p ih =>
    obtain ⟨hc, hp⟩ := List.forall_mem_cons.1 hp
    rw [List.cons_append, docMeaning_cons (isPlainDoc_iff.1 hc).2, ih hp, Option.map_map]
    rfl

/-! ## What spells a text -/

/-- In front of anything but a quote, the characters of `written` are read over and mean `text`. -/
structure Spells (written text : String) : Prop where
  read : ∀ rest : List Char, rest.head? ≠ some '\x22' →
    readDoc (written.toList ++ rest) = (readDoc rest).map (Prod.map (written.toList ++ ·) id)
  meaning : ∀ rest : List Char,
    docMeaning (written.toList ++ rest) = (docMeaning rest).map (text.toList ++ ·)

theorem spells_self {s : String} (h : IsPlainDoc s) : Spells s s :=
  ⟨fun rest _ => readDoc_plain h rest, docMeaning_plain h⟩

namespace Spells

variable {w w' m m' s : String}

/-- What is written first has to end before a quote, so the second text must not start with one. -/
theorem append (h : Spells w m) (h' : Spells w' m') (hquote : w'.toList.head? ≠ some '\x22') :
    Spells (w ++ w') (m ++ m') := by
  constructor
  case read =>
    intro rest hrest
    have hhead : (w'.toList ++ rest).head? ≠ some '\x22' := by
      cases hw' : w'.toList with
      | nil => exact hrest
      | cons c cs =>
        rw [hw'] at hquote
        exact hquote
    rw [String.toList_append, List.append_assoc, h.read _ hhead, h'.read _ hrest, Option.map_map]
    exact congrArg (Option.map · _) (funext fun _ => by simp [Prod.map])
  case meaning =>
    intro rest
    rw [String.toList_append, String.toList_append, List.append_assoc, h.meaning, h'.meaning,
      Option.map_map]
    exact congrArg (Option.map · _) (funext fun _ => by simp)

/-- Plain characters may stand before a quote. -/
theorem plain_append (h : Spells w m) (hs : IsPlainDoc s) : Spells (s ++ w) (s ++ m) := by
  constructor
  case read =>
    intro rest hrest
    rw [String.toList_append, List.append_assoc, readDoc_plain hs, h.read _ hrest, Option.map_map]
    exact congrArg (Option.map · _) (funext fun _ => by simp [Prod.map])
  case meaning =>
    intro rest
    rw [String.toList_append, String.toList_append, List.append_assoc, docMeaning_plain hs,
      h.meaning, Option.map_map]
    exact congrArg (Option.map · _) (funext fun _ => by simp)

end Spells

/-- What spells a text piece by piece spells it as a whole, with plain separators. -/
theorem spells_intercalate {sep : String} (hsep : IsPlainDoc sep) (hne : sep ≠ "")
    {ws ms : List String} (h : List.Forall₂ Spells ws ms) :
    Spells (sep.intercalate ws) (sep.intercalate ms) := by
  have hquote : ∀ s, (sep ++ s).toList.head? ≠ some '\x22' := by
    intro s
    obtain ⟨c, cs, hcs⟩ := List.exists_cons_of_ne_nil fun h => hne (String.toList_injective h)
    have hc := hsep c (by simp [hcs])
    rw [String.toList_append, hcs]
    simpa using (isPlainDoc_iff.1 hc).1
  -- the separator is plain and not empty, so no quote follows a part
  induction h with
  | nil => exact spells_self (by simp [IsPlainDoc])
  | cons hw hws ih =>
    cases hws with
    | nil => simpa using hw
    | cons hw' hws' =>
      rw [String.intercalate_cons_of_ne_nil (List.cons_ne_nil _ _),
        String.intercalate_cons_of_ne_nil (List.cons_ne_nil _ _), String.append_assoc,
        String.append_assoc]
      -- the part, then the separator with the rest
      exact hw.append (ih.plain_append hsep) (hquote _)

/-! ## Escaped texts -/

theorem docChars_nil : docChars [] = [] := rfl

theorem docChars_quotes (cs : List Char) : docChars ('\x22' :: '\x22' :: '\x22' :: cs) =
    '\x5c' :: '\x22' :: '\x5c' :: '\x22' :: '\x5c' :: '\x22' :: docChars cs := rfl

theorem docChars_backslash (cs : List Char) :
    docChars ('\x5c' :: cs) = '\x5c' :: '\x5c' :: docChars cs := rfl

/-- Fewer than three quotes in a row are not escaped. -/
theorem docChars_quote (h : ¬ ['\x22', '\x22'] <+: cs) :
    docChars ('\x22' :: cs) = '\x22' :: docChars cs := by
  rw [docChars.eq_3]
  · intro cs' _ heq
    exact h ⟨cs', heq.symm⟩
  · decide

theorem docChars_cons (hc : isPlainDoc c = true) : docChars (c :: cs) = c :: docChars cs := by
  obtain ⟨hquote, hbackslash⟩ := isPlainDoc_iff.1 hc
  rw [docChars.eq_3]
  · intro _ heq _
    exact hquote heq
  · exact hbackslash

/-- Induction along the escaping of characters. -/
theorem doc_induction {motive : List Char → Prop} (nil : motive [])
    (quotes : ∀ cs, motive cs → motive ('\x22' :: '\x22' :: '\x22' :: cs))
    (backslash : ∀ cs, motive cs → motive ('\x5c' :: cs))
    (quote : ∀ cs, ¬ ['\x22', '\x22'] <+: cs → motive cs → motive ('\x22' :: cs))
    (plain : ∀ c cs, isPlainDoc c = true → motive cs → motive (c :: cs)) (cs : List Char) :
    motive cs := by
  induction cs using docChars.induct with
  | case1 cs ih => exact quotes cs ih
  | case2 cs ih => exact backslash cs ih
  | case3 c cs hquotes hbackslash ih =>
    -- the last case of the definition is split: a quote may be left alone there
    by_cases hc : c = '\x22'
    · subst hc
      exact quote cs (fun ⟨rest, heq⟩ => hquotes rest rfl heq.symm) ih
    · exact plain c cs (isPlainDoc_iff.2 ⟨hc, fun h => hbackslash h⟩) ih
  | case4 => exact nil

/-- Two quotes at the start of `as ++ bs` are both in `as` if `bs` does not start with one. -/
theorem two_quotes_of_append {as bs : List Char} (hbs : bs.head? ≠ some '\x22')
    (h : ['\x22', '\x22'] <+: as ++ bs) : ['\x22', '\x22'] <+: as := by
  have hhead : ∀ tail, bs ≠ '\x22' :: tail := by
    rintro tail rfl
    exact hbs rfl
  obtain ⟨tail, htail⟩ := h
  match as, htail with
  | [], htail => exact absurd htail.symm (hhead _)
  | [_], htail =>
    obtain ⟨-, htail⟩ := List.cons.inj htail
    exact absurd htail.symm (hhead _)
  | c :: d :: as, htail =>
    obtain ⟨hc, htail⟩ := List.cons.inj htail
    obtain ⟨hd, -⟩ := List.cons.inj htail
    exact ⟨as, by rw [← hc, ← hd]; rfl⟩

/-- A quote that is not escaped stands for itself. -/
theorem exists_quote_of_docChars {ws : List Char} (h : docChars cs = '\x22' :: ws) :
    ∃ tail, cs = '\x22' :: tail ∧ docChars tail = ws := by
  cases cs using doc_induction with
  | nil => cases h
  | quotes cs => cases h
  | backslash cs => cases h
  | quote cs hcs =>
    rw [docChars_quote hcs] at h
    exact ⟨cs, rfl, (List.cons.inj h).2⟩
  | plain c cs hc =>
    rw [docChars_cons hc] at h
    exact absurd (List.cons.inj h).1 (isPlainDoc_iff.1 hc).1

/-- Escaping puts no two quotes together at the start of a text. -/
theorem two_quotes_of_docChars (h : ['\x22', '\x22'] <+: docChars cs) :
    ['\x22', '\x22'] <+: cs := by
  obtain ⟨ws, hws⟩ := h
  obtain ⟨tail, rfl, htail⟩ := exists_quote_of_docChars hws.symm
  obtain ⟨tail', rfl, -⟩ := exists_quote_of_docChars htail
  exact ⟨tail', rfl⟩

/-- An escaped text is read over, up to a character that is no quote. -/
theorem readDoc_docChars (hrest : rest.head? ≠ some '\x22') :
    readDoc (docChars cs ++ rest) = (readDoc rest).map (Prod.map (docChars cs ++ ·) id) := by
  induction cs using doc_induction with
  | nil => exact readDoc_plain (p := []) (by simp) rest
  | quotes cs ih =>
    simp only [docChars_quotes, List.cons_append, readDoc_escaped, ih, Option.map_map]
    rfl
  | backslash cs ih =>
    simp only [docChars_backslash, List.cons_append, readDoc_escaped, ih, Option.map_map]
    rfl
  | quote cs hcs ih =>
    -- no two quotes follow, neither in the text nor in what stands behind it
    have hquotes : ¬ ['\x22', '\x22'] <+: docChars cs ++ rest := fun h =>
      hcs (two_quotes_of_docChars (two_quotes_of_append hrest h))
    rw [docChars_quote hcs, List.cons_append, readDoc_cons (by decide) fun _ => hquotes, ih,
      Option.map_map]
    rfl
  | plain c cs hc ih =>
    obtain ⟨hquote, hbackslash⟩ := isPlainDoc_iff.1 hc
    rw [docChars_cons hc, List.cons_append, readDoc_cons hbackslash fun h => absurd h hquote, ih,
      Option.map_map]
    rfl

/-- An escaped text means the text. -/
theorem docMeaning_docChars (cs rest : List Char) :
    docMeaning (docChars cs ++ rest) = (docMeaning rest).map (cs ++ ·) := by
  induction cs using doc_induction with
  | nil => exact docMeaning_plain (p := []) (by simp) rest
  | quotes cs ih =>
    simp only [docChars_quotes, List.cons_append, docMeaning_quote, ih, Option.map_map]
    rfl
  | backslash cs ih =>
    simp only [docChars_backslash, List.cons_append, docMeaning_backslash, ih, Option.map_map]
    rfl
  | quote cs hcs ih =>
    rw [docChars_quote hcs, List.cons_append, docMeaning_cons (by decide), ih, Option.map_map]
    rfl
  | plain c cs hc ih =>
    rw [docChars_cons hc, List.cons_append, docMeaning_cons (isPlainDoc_iff.1 hc).2, ih,
      Option.map_map]
    rfl

/-- An escaped text spells the text. -/
theorem spells_docText (s : String) : Spells (docText s) s := by
  rw [docText]
  constructor
  case read =>
    intro rest hrest
    rw [String.toList_ofList, readDoc_docChars hrest]
  case meaning =>
    intro rest
    rw [String.toList_ofList, docMeaning_docChars]

/-! ## Escaping and trimming -/

theorem docChars_plain_append (hp : ∀ c ∈ p, isPlainDoc c = true) (cs : List Char) :
    docChars (p ++ cs) = p ++ docChars cs := by
  induction p with
  | nil => rfl
  | cons c p ih =>
    obtain ⟨hc, hp⟩ := List.forall_mem_cons.1 hp
    rw [List.cons_append, docChars_cons hc, ih hp, List.cons_append]

/-- Texts are escaped piece by piece if no quotes meet. -/
theorem docChars_append {bs : List Char} (hbs : bs.head? ≠ some '\x22') (cs : List Char) :
    docChars (cs ++ bs) = docChars cs ++ docChars bs := by
  induction cs using doc_induction with
  | nil => rfl
  | quotes cs ih => simp [docChars_quotes, ih]
  | backslash cs ih => simp [docChars_backslash, ih]
  | quote cs hcs ih =>
    rw [List.cons_append, docChars_quote fun h => hcs (two_quotes_of_append hbs h),
      docChars_quote hcs, ih, List.cons_append]
  | plain c cs hc ih =>
    rw [List.cons_append, docChars_cons hc, docChars_cons hc, ih, List.cons_append]

/-- A backslash is put before a character, so the last character stays. -/
theorem getLast?_docChars (cs : List Char) : (docChars cs).getLast? = cs.getLast? := by
  induction cs using doc_induction with
  | nil => rfl
  | quotes cs ih => simp [docChars_quotes, List.getLast?_cons, ih]
  | backslash cs ih => simp [docChars_backslash, List.getLast?_cons, ih]
  | quote cs hcs ih => rw [docChars_quote hcs, List.getLast?_cons, List.getLast?_cons, ih]
  | plain c cs hc ih => rw [docChars_cons hc, List.getLast?_cons, List.getLast?_cons, ih]

/-- Blanks are not escaped. -/
theorem isPlainDoc_of_isBlank (hc : isBlank c = true) : isPlainDoc c = true := by
  rw [isPlainDoc_iff]
  constructor <;> rintro rfl <;> simp [isBlank, isWhiteSpace] at hc

/-- Trimming an escaped text at its end is escaping the trimmed text. -/
theorem trimEndChars_docChars (cs : List Char) :
    trimEndChars (docChars cs) = docChars (trimEndChars cs) := by
  have hdrop : ∀ cs : List Char, trimEndChars cs = cs.rdropWhile isBlank := fun _ => rfl
  rw [hdrop, hdrop]
  -- the blanks are dropped from the end, so the induction is on the last character
  induction cs using List.reverseRecOn with
  | nil => rfl
  | append_singleton cs c ih =>
    rw [List.rdropWhile_concat]
    split
    · next hc =>
      have hplain := isPlainDoc_of_isBlank hc
      have hhead : [c].head? ≠ some '\x22' := by simpa using (isPlainDoc_iff.1 hplain).1
      rw [docChars_append hhead, docChars_cons hplain, docChars_nil,
        List.rdropWhile_concat_pos _ _ _ hc, ih]
    · next hc =>
      rw [List.rdropWhile_eq_self_iff]
      intro hne
      -- nothing is dropped: the escaped text ends as the text does
      have hlast := getLast?_docChars (cs ++ [c])
      rw [List.getLast?_concat, List.getLast?_eq_some_getLast hne, Option.some.injEq] at hlast
      rwa [hlast]

/-- The lines of a description are trimmed after they have been escaped and indented. -/
theorem trimEnd_plain_append_docText {s : String} (hs : IsPlainDoc s) (t : String) :
    trimEnd (s ++ docText t) = docText (trimEnd (s ++ t)) := by
  rw [trimEnd, trimEnd, docText, docText, String.toList_append, String.toList_ofList,
    ← docChars_plain_append hs, trimEndChars_docChars, String.toList_ofList, String.toList_append]

end AgentFlow.Skeleton.Python
