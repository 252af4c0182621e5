import AgentFlow.Proofs.Text.Names
import AgentFlow.Proofs.Text.Runs
import Mathlib.Computability.Language

/-!
# The form of slugs

A slug is made of words of small letters and digits with single underscores between them
(`isSlug_slug`): the slug of a text joins the maximal runs of these characters in its lower case
(`slugChars_eq_intercalate`). So it matches `[a-z0-9]+(_[a-z0-9]+)*`
(`IsSlug.mem_slugWords_mul_moreWords`). In camel case the underscores are gone, but where one was,
there is a capital or a digit now (`exists_isMark_camelCase`).
-/

namespace AgentFlow.Text

variable {c : Char} {cs as bs : List Char} {s : String}

/-! ## Slugs as joined runs -/

/-- Inside a gap, what belongs to it is dropped. -/
theorem collapse_true_dropWhile (cs : List Char) :
    collapse true (cs.dropWhile (!isSlugChar ·)) = collapse true cs := by
  induction cs with
  | nil => rfl
  | cons c rest ih =>
    cases hc : isSlugChar c with
    | true => rw [List.dropWhile_cons_of_neg (by simp [hc])]
    | false =>
      rw [List.dropWhile_cons_of_pos (by simp [hc]), ih]
      simp [collapse, hc]

/-- Outside a gap, the text is kept up to the next one. -/
theorem collapse_false_eq (cs : List Char) :
    collapse false cs = cs.takeWhile isSlugChar ++ collapse false (cs.dropWhile isSlugChar) := by
  induction cs with
  | nil => rfl
  | cons c rest ih =>
    cases hc : isSlugChar c with
    | true =>
      rw [List.takeWhile_cons_of_pos hc, List.dropWhile_cons_of_pos hc, List.cons_append, ← ih]
      simp [collapse, hc]
    | false => simp [hc]

/-- Outside a gap, a gap that starts is marked. -/
theorem collapse_false_eq_or (cs : List Char) :
    collapse false cs = collapse true cs ∨ collapse false cs = '_' :: collapse true cs := by
  cases cs with
  | nil => exact .inl rfl
  | cons c rest => cases hc : isSlugChar c <;> simp [collapse, hc]

/-- Behind a run, the text ends or a gap starts, which is marked. -/
theorem collapse_false_of_dropWhile (cs : List Char) :
    cs.dropWhile isSlugChar = [] ∨
      collapse false (cs.dropWhile isSlugChar) =
        '_' :: collapse true (cs.dropWhile isSlugChar) := by
  cases hrest : cs.dropWhile isSlugChar with
  | nil => exact .inl rfl
  | cons c rest =>
    have hc : isSlugChar c = false := by
      simpa [hrest] using List.head?_dropWhile_not isSlugChar cs
    exact .inr (by simp [collapse, hc])

/-- Inside a gap, what is left are the runs with underscores between them, and perhaps one behind
the last. -/
theorem exists_collapse_true_eq (cs : List Char) :
    ∃ behind, (∀ c ∈ behind, c = '_') ∧
      collapse true cs = ['_'].intercalate (runs isSlugChar cs) ++ behind := by
  fun_induction runs isSlugChar cs with
  | case1 cs h => exact ⟨[], by simp, by rw [← collapse_true_dropWhile, h]; rfl⟩
  | case2 cs c rest h ih =>
    have hc : isSlugChar c = true := by
      simpa [h] using List.head?_dropWhile_not (!isSlugChar ·) cs
    obtain ⟨behind, hbehind, heq⟩ := ih
    have hcollapse : collapse true cs =
        (c :: rest.takeWhile isSlugChar) ++ collapse false (rest.dropWhile isSlugChar) := by
      rw [← collapse_true_dropWhile, h, List.cons_append, ← collapse_false_eq]
      simp [collapse, hc]
    rw [hcollapse]
    rcases collapse_false_of_dropWhile rest with hlast | hgap
    · -- The run is the last one, so there is no gap behind it.
      rw [hlast]
      exact ⟨[], by simp, by simp [runs, collapse]⟩
    · rw [hgap, heq]
      by_cases hruns : runs isSlugChar (rest.dropWhile isSlugChar) = []
      · rw [hruns]
        exact ⟨'_' :: behind, by simpa using hbehind, by simp⟩
      · rw [List.intercalate_cons_of_ne_nil hruns]
        exact ⟨behind, hbehind, by simp⟩

/-- What trimming looks for may stand at both ends of a trimmed text. -/
theorem trimBy_append {p : Char → Bool} {front mid back : List Char}
    (hfront : ∀ c ∈ front, p c = true) (hback : ∀ c ∈ back, p c = true)
    (hmid : trimBy p mid = mid) : trimBy p (front ++ mid ++ back) = mid := by
  have hdrop : (front ++ mid ++ back).dropWhile p = (mid ++ back).dropWhile p := by
    rw [List.append_assoc, List.dropWhile_append_of_pos hfront]
  have hreverse : ∀ cs, ((cs ++ back).reverse.dropWhile p).reverse =
      (cs.reverse.dropWhile p).reverse := by
    intro cs
    rw [List.reverse_append,
      List.dropWhile_append_of_pos fun c hc => hback c (List.mem_reverse.1 hc)]
  cases mid with
  | nil =>
    rw [trimBy, hdrop, List.nil_append, List.dropWhile_eq_nil_iff.2 hback]
    rfl
  | cons c rest =>
    have hc : p c = false := (trimBy_eq_self_iff.1 hmid).1 c rfl
    rw [trimBy, List.dropWhile_cons_of_neg (by simp [hc])] at hmid
    rw [trimBy, hdrop, List.cons_append, List.dropWhile_cons_of_neg (by simp [hc]),
      ← List.cons_append, hreverse, hmid]

/-! ## The form of slugs -/

/-- Words of small letters and digits, with single underscores between them. -/
inductive IsSlug : List Char → Prop where
  | single {c : Char} (hc : isSlugChar c = true) : IsSlug [c]
  | cons {c : Char} {cs : List Char} (hc : isSlugChar c = true) (h : IsSlug cs) : IsSlug (c :: cs)
  | gap {c : Char} {cs : List Char} (hc : isSlugChar c = true) (h : IsSlug cs) :
      IsSlug (c :: '_' :: cs)

namespace IsSlug

/-- One word is a slug. -/
theorem of_forall (h : ∀ c ∈ cs, isSlugChar c = true) (hne : cs ≠ []) : IsSlug cs := by
  induction cs with
  | nil => exact absurd rfl hne
  | cons c rest ih =>
    obtain ⟨hc, hrest⟩ := List.forall_mem_cons.1 h
    cases rest with
    | nil => exact .single hc
    | cons d more => exact .cons hc (ih hrest (List.cons_ne_nil d more))

/-- Slugs are joined by an underscore. -/
theorem append_gap (ha : IsSlug as) (hb : IsSlug bs) : IsSlug (as ++ '_' :: bs) := by
  induction ha with
  | single hc => exact .gap hc hb
  | cons hc _ ih => exact .cons hc ih
  | gap hc _ ih => exact .gap hc ih

theorem repr (n : Nat) : IsSlug n.repr.toList :=
  .of_forall (fun _ => isSlugChar_of_mem_repr) (toList_repr_ne_nil n)

theorem exists_head? (h : IsSlug cs) : ∃ c, cs.head? = some c ∧ isSlugChar c = true := by
  cases h with
  | single hc => exact ⟨_, rfl, hc⟩
  | cons hc _ => exact ⟨_, rfl, hc⟩
  | gap hc _ => exact ⟨_, rfl, hc⟩

theorem exists_getLast? (h : IsSlug cs) : ∃ c, cs.getLast? = some c ∧ isSlugChar c = true := by
  induction h with
  | single hc => exact ⟨_, rfl, hc⟩
  | cons _ h ih =>
    obtain ⟨c, hlast, hc⟩ := ih
    exact ⟨c, by rw [List.getLast?_cons, hlast]; rfl, hc⟩
  | gap _ h ih =>
    obtain ⟨c, hlast, hc⟩ := ih
    exact ⟨c, by rw [List.getLast?_cons, List.getLast?_cons, hlast]; rfl, hc⟩

/-- No underscore stands at either end. -/
theorem trimBy_eq (h : IsSlug cs) : trimBy (· == '_') cs = cs := by
  obtain ⟨first, hfirst, hc⟩ := h.exists_head?
  obtain ⟨last, hlast, hd⟩ := h.exists_getLast?
  have hne : ∀ {c : Char}, isSlugChar c = true → (c == '_') = false := by
    intro c hc
    rw [beq_eq_false_iff_ne]
    rintro rfl
    cases hc
  rw [trimBy_eq_self_iff, hfirst, hlast]
  exact ⟨by simpa using hne hc, by simpa using hne hd⟩

/-- Behind an underscore there is a slug character. -/
theorem exists_gap (h : IsSlug cs) (hmem : '_' ∈ cs) :
    ∃ before c after, cs = before ++ '_' :: c :: after ∧ isSlugChar c = true := by
  induction h with
  | single hc =>
    obtain rfl := List.mem_singleton.1 hmem
    cases hc
  | @cons c cs hc _ ih =>
    rcases List.mem_cons.1 hmem with rfl | hmem
    · cases hc
    · obtain ⟨before, d, after, rfl, hd⟩ := ih hmem
      exact ⟨c :: before, d, after, rfl, hd⟩
  | @gap c cs _ h _ =>
    obtain ⟨d, hhead, hd⟩ := h.exists_head?
    obtain ⟨after, rfl⟩ := List.head?_eq_some_iff.1 hhead
    exact ⟨[c], d, after, rfl, hd⟩

end IsSlug

/-- Words that are joined by underscores are a slug, if there are any. -/
theorem isSlug_intercalate {words : List (List Char)}
    (h : ∀ word ∈ words, word ≠ [] ∧ ∀ c ∈ word, isSlugChar c = true) :
    ['_'].intercalate words = [] ∨ IsSlug (['_'].intercalate words) := by
  induction words with
  | nil => exact .inl rfl
  | cons word rest ih =>
    obtain ⟨⟨hne, hword⟩, hrest⟩ := List.forall_mem_cons.1 h
    have hslug : IsSlug word := .of_forall hword hne
    by_cases hnil : rest = []
    · rw [hnil, List.intercalate_singleton]
      exact .inr hslug
    · rw [List.intercalate_cons_of_ne_nil hnil, List.append_assoc]
      have hne' : ['_'].intercalate rest ≠ [] :=
        intercalate_ne_nil _ (fun part hpart => (hrest part hpart).1) hnil
      exact .inr (hslug.append_gap ((ih hrest).resolve_left hne'))

theorem isSlug_runs (cs : List Char) :
    ['_'].intercalate (runs isSlugChar cs) = [] ∨ IsSlug (['_'].intercalate (runs isSlugChar cs)) :=
  isSlug_intercalate fun _ hrun => ⟨ne_nil_of_mem_runs hrun, fun _ => forall_of_mem_runs hrun⟩

/-- Without underscores at its ends, a collapsed text joins the runs of slug characters. -/
theorem trimBy_collapse (cs : List Char) :
    trimBy (· == '_') (collapse false cs) = ['_'].intercalate (runs isSlugChar cs) := by
  obtain ⟨behind, hbehind, heq⟩ := exists_collapse_true_eq cs
  have htrimmed : trimBy (· == '_') (['_'].intercalate (runs isSlugChar cs)) =
      ['_'].intercalate (runs isSlugChar cs) := by
    rcases isSlug_runs cs with hnil | hslug
    · rw [hnil]
      rfl
    · exact hslug.trimBy_eq
  have htrim : ∀ front : List Char, (∀ c ∈ front, c = '_') →
      trimBy (· == '_') (front ++ collapse true cs) = ['_'].intercalate (runs isSlugChar cs) := by
    intro front hfront
    rw [heq, ← List.append_assoc]
    exact trimBy_append (by simpa using hfront) (by simpa using hbehind) htrimmed
  rcases collapse_false_eq_or cs with hsame | hgap
  · rw [hsame]
    exact htrim [] (by simp)
  · rw [hgap]
    exact htrim ['_'] (by simp)

/-- The slug of a text joins the runs of slug characters in its lower case. -/
theorem slugChars_eq_intercalate (cs : List Char) :
    slugChars cs = ['_'].intercalate (runs isSlugChar (lower cs)) := trimBy_collapse (lower cs)

/-- A slug is empty or has the form of one. -/
theorem isSlug_slug (h : slug s ≠ "") : IsSlug (slug s).toList := by
  rw [slug, String.toList_ofList, slugChars_eq_intercalate]
  refine (isSlug_runs _).resolve_left fun hnil => h ?_
  rw [slug, slugChars_eq_intercalate, hnil, String.ofList_nil]

/-! ## Slugs as a regular language -/

section Language

open scoped Computability

variable {l : Language Char} {p : Char → Bool} {word rest : List Char}

def oneOf (p : Char → Bool) : Language Char := {cs | ∃ c, p c = true ∧ cs = [c]}

/-- The words of small letters and digits: `[a-z0-9]+`. -/
def slugWords : Language Char := oneOf isSlugChar * (oneOf isSlugChar)∗

/-- What follows the first word of a slug: `(_[a-z0-9]+)*`. -/
def moreWords : Language Char := (oneOf (· == '_') * slugWords)∗

theorem singleton_mem_oneOf (h : p c = true) : [c] ∈ oneOf p := ⟨c, h, rfl⟩

theorem append_mem_kstar (hword : word ∈ l) (hrest : rest ∈ l∗) : word ++ rest ∈ l∗ := by
  rw [← Language.one_add_self_mul_kstar_eq_kstar, Language.mem_add]
  exact .inr (Language.append_mem_mul hword hrest)

theorem singleton_mem_slugWords (hc : isSlugChar c = true) : [c] ∈ slugWords :=
  Language.append_mem_mul (singleton_mem_oneOf hc) (Language.nil_mem_kstar _)

theorem cons_mem_slugWords (hc : isSlugChar c = true) (h : word ∈ slugWords) :
    c :: word ∈ slugWords := by
  obtain ⟨first, hfirst, more, hmore, rfl⟩ := Language.mem_mul.1 h
  exact Language.append_mem_mul (singleton_mem_oneOf hc) (append_mem_kstar hfirst hmore)

theorem underscore_mem_moreWords (hword : word ∈ slugWords) (hrest : rest ∈ moreWords) :
    '_' :: word ++ rest ∈ moreWords :=
  append_mem_kstar (Language.append_mem_mul (singleton_mem_oneOf rfl) hword) hrest

theorem IsSlug.mem_slugWords_mul_moreWords (h : IsSlug cs) : cs ∈ slugWords * moreWords := by
  induction h with
  | single hc =>
    exact Language.append_mem_mul (singleton_mem_slugWords hc) (Language.nil_mem_kstar _)
  | cons hc _ ih =>
    obtain ⟨word, hword, rest, hrest, rfl⟩ := Language.mem_mul.1 ih
    exact Language.append_mem_mul (cons_mem_slugWords hc hword) hrest
  | gap hc _ ih =>
    obtain ⟨word, hword, rest, hrest, rfl⟩ := Language.mem_mul.1 ih
    exact Language.append_mem_mul (singleton_mem_slugWords hc)
      (underscore_mem_moreWords hword hrest)

end Language

/-! ## Slugs in camel case -/

/-- A capital or a digit: what stands in camel case where an underscore was. -/
def isMark (c : Char) : Bool := c.isUpper || c.isDigit

/-- The capital of a slug character is a mark, also where there is none and the digit stays. -/
theorem isMark_toUpper (h : isSlugChar c = true) : isMark c.toUpper = true :=
  isSlugChar_forall (P := fun c => isMark c.toUpper = true) (by decide +kernel) h

/-- A number at the end is a mark. -/
theorem exists_isMark_numbered (sep base : String) (n : Nat) :
    ∃ c ∈ (numbered sep base n).toList, isMark c = true := by
  obtain ⟨c, hc⟩ := List.exists_mem_of_ne_nil _ (toList_repr_ne_nil n)
  have hdigit : c.isDigit = true := isDigit_of_mem_repr hc
  refine ⟨c, ?_, by rw [isMark, hdigit, Bool.or_true]⟩
  rw [numbered, String.toList_append]
  exact List.mem_append_right _ hc

/-- The words of a name are its pieces between underscores. -/
theorem underscoreParts_eq_pieces (cs : List Char) :
    underscoreParts cs = pieces (· == '_') cs := by
  induction cs with
  | nil => rfl
  | cons c rest ih =>
    cases hrest : pieces (· == '_') rest <;> simp [underscoreParts, pieces, ih, hrest]

/-- Without underscores, nothing changes. -/
theorem camelCase_of_notMem (h : '_' ∉ s.toList) : camelCase s = s := by
  have hparts : underscoreParts s.toList = [s.toList] := by
    rw [underscoreParts_eq_pieces]
    refine pieces_eq_singleton fun c hc => ?_
    rw [beq_eq_false_iff_ne]
    rintro rfl
    exact h hc
  rw [camelCase, hparts]
  simp

/-- With underscores in it, a slug gets a mark. -/
theorem exists_isMark_camelCase (h : IsSlug s.toList) (hmem : '_' ∈ s.toList) :
    ∃ c ∈ (camelCase s).toList, isMark c = true := by
  obtain ⟨before, c, after, hs, hc⟩ := h.exists_gap hmem
  have hne : c ≠ '_' := by
    rintro rfl
    cases hc
  obtain ⟨part, more, hparts⟩ := exists_underscoreParts_cons hne after
  obtain ⟨first, others, hbefore⟩ := List.exists_cons_of_ne_nil (pieces_ne_nil (· == '_') before)
  -- The underscore has a word in front of it, be it empty, so the word behind it is not the first,
  -- which is the one that is not capitalized.
  have hall : underscoreParts s.toList = first :: (others ++ (c :: part) :: more) := by
    rw [hs, underscoreParts_eq_pieces, pieces_append_cons rfl, hbefore,
      ← underscoreParts_eq_pieces, hparts, List.cons_append]
  have hupper : upperChar c = [c.toUpper] := by
    rw [upperChar, if_pos (toNat_lt_of_isNameChar (isNameChar_of_isSlugChar hc))]
  refine ⟨c.toUpper, ?_, isMark_toUpper hc⟩
  simp [camelCase, hall, capitalized, hupper]

end AgentFlow.Text
