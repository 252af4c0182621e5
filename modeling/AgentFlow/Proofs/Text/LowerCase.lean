import AgentFlow.Proofs.Text.Slugs

/-!
# Slugs and lower case

What the lower case of a text is depends on a table of letters, and for some of them on the letters
around. A slug depends on none of this (`toList_slug_of_isLowerCase`): only two characters beyond
ASCII have a lower case with ASCII characters in it. It joins the runs of slug characters in
whatever the lower case is, so it is the slug of itself, and the slug of two texts with a space
between them joins the slugs of the two (`slug_joins_runs`).
-/

namespace AgentFlow.Text

/-! ## Lower case -/

/-- `low` is a lower case of the text: capitals of ASCII become small letters, and its other
characters stay; the Kelvin sign becomes a `k`, and the dotted capital I becomes an `i` with a
combining dot; any other character may become any characters beyond ASCII, as its surroundings have
it. -/
inductive IsLowerCase : (cs low : List Char) → Prop where
  | nil : IsLowerCase [] []
  | ascii {c : Char} {cs low : List Char} (hc : c.toNat < 128) (h : IsLowerCase cs low) :
      IsLowerCase (c :: cs) (c.toLower :: low)
  | kelvin {cs low : List Char} (h : IsLowerCase cs low) :
      IsLowerCase ('\u212a' :: cs) ('k' :: low)
  | dotted {cs low : List Char} (h : IsLowerCase cs low) :
      IsLowerCase ('\u0130' :: cs) ('i' :: '\u0307' :: low)
  | beyond {c : Char} {other cs low : List Char} (hc : 128 ≤ c.toNat) (hkelvin : c ≠ '\u212a')
      (hdotted : c ≠ '\u0130') (hne : other ≠ []) (hother : ∀ d ∈ other, 128 ≤ d.toNat)
      (h : IsLowerCase cs low) : IsLowerCase (c :: cs) (other ++ low)

variable {c : Char} {cs low other as bs : List Char} {s t : String}

/-- The lower case of single characters is that of ASCII, and leaves all others alone. -/
theorem toLower_of_le (h : 128 ≤ c.toNat) : c.toLower = c := by
  have hne : ¬ (c.val ≥ 'A'.val ∧ c.val ≤ 'Z'.val) := by
    rintro ⟨-, hle⟩
    have : c.toNat ≤ 'Z'.toNat := UInt32.le_iff_toNat_le.1 hle
    have hz : 'Z'.toNat = 90 := rfl
    omega
  exact dif_neg hne

/-- Only two characters beyond ASCII are changed. -/
theorem lowerChar_of_ne (hkelvin : c ≠ '\u212a') (hdotted : c ≠ '\u0130') :
    lowerChar c = [c.toLower] := by
  have hcode : ∀ d : Char, c ≠ d → c.toNat ≠ d.toNat := fun d hd h => hd (Char.toNat_inj.1 h)
  rw [lowerChar, if_neg (by simpa using hcode _ hkelvin), if_neg (by simpa using hcode _ hdotted)]

theorem lowerChar_of_lt (h : c.toNat < 128) : lowerChar c = [c.toLower] :=
  lowerChar_of_ne (by rintro rfl; exact absurd h (by decide))
    (by rintro rfl; exact absurd h (by decide))

/-- What the program takes for the lower case of a text is one. -/
theorem isLowerCase_lower (cs : List Char) : IsLowerCase cs (lower cs) := by
  induction cs with
  | nil => exact .nil
  | cons c cs ih =>
    rw [lower, List.flatMap_cons]
    by_cases hkelvin : c = '\u212a'
    · rw [hkelvin]
      exact .kelvin ih
    by_cases hdotted : c = '\u0130'
    · rw [hdotted]
      exact .dotted ih
    rw [lowerChar_of_ne hkelvin hdotted]
    rcases Nat.lt_or_ge c.toNat 128 with hc | hc
    · exact .ascii hc ih
    · exact .beyond hc hkelvin hdotted (by simp) (by simpa [toLower_of_le hc] using hc) ih

/-! ## What a slug sees of it -/

/-- Slug characters are characters of ASCII. -/
theorem isSlugChar_eq_false_of_le (h : 128 ≤ c.toNat) : isSlugChar c = false := by
  by_contra hne
  have := toNat_lt_of_isNameChar (isNameChar_of_isSlugChar (Bool.eq_true_of_not_eq_false hne))
  omega

/-- A gap is marked once, unless it goes on. -/
theorem collapse_append_of_forall (h : ∀ c ∈ other, isSlugChar c = false) (hne : other ≠ [])
    (inGap : Bool) (cs : List Char) :
    collapse inGap (other ++ cs) = (if inGap then [] else ['_']) ++ collapse true cs := by
  induction other generalizing inGap with
  | nil => exact absurd rfl hne
  | cons c rest ih =>
    obtain ⟨hc, hrest⟩ := List.forall_mem_cons.1 h
    rw [List.cons_append, collapse, hc]
    by_cases hnil : rest = []
    · cases inGap <;> simp [hnil]
    · cases inGap <;> simp [ih hrest hnil]

/-- What follows a text may be replaced by anything that collapses to the same. -/
theorem collapse_append_congr {cs' : List Char}
    (h : ∀ inGap, collapse inGap cs = collapse inGap cs') (front : List Char) (inGap : Bool) :
    collapse inGap (front ++ cs) = collapse inGap (front ++ cs') := by
  induction front generalizing inGap with
  | nil => exact h inGap
  | cons c rest ih => simp only [List.cons_append, collapse, ih]

/-- All lower cases of a text collapse to the same. -/
theorem collapse_of_isLowerCase (h : IsLowerCase cs low) (inGap : Bool) :
    collapse inGap low = collapse inGap (lower cs) := by
  -- By the ways in which a character is lowered: ASCII is lowered in one way only.
  induction h generalizing inGap with
  | nil => rfl
  | @ascii c cs low hc _ ih =>
    rw [lower, List.flatMap_cons, lowerChar_of_lt hc]
    exact collapse_append_congr ih [c.toLower] inGap
  | kelvin _ ih => exact collapse_append_congr ih ['k'] inGap
  | dotted _ ih => exact collapse_append_congr ih ['i', '\u0307'] inGap
  | @beyond c other cs low hc hkelvin hdotted hne hother _ ih =>
    have hlower : lowerChar c = [c] := by
      rw [lowerChar_of_ne hkelvin hdotted, toLower_of_le hc]
    have hsingle : ∀ d ∈ [c], isSlugChar d = false := by
      simpa using isSlugChar_eq_false_of_le hc
    have hmany : ∀ d ∈ other, isSlugChar d = false := fun d hd =>
      isSlugChar_eq_false_of_le (hother d hd)
    -- Of what a character beyond ASCII becomes, the slug sees a gap.
    rw [lower, List.flatMap_cons, hlower, collapse_append_of_forall hmany hne,
      collapse_append_of_forall hsingle (by simp), ih]
    rfl

/-- The slug joins the runs of slug characters in any lower case of the text. -/
theorem toList_slug_of_isLowerCase (h : IsLowerCase s.toList low) :
    (slug s).toList = ['_'].intercalate (runs isSlugChar low) := by
  rw [slug, String.toList_ofList, slugChars, ← collapse_of_isLowerCase h, trimBy_collapse]

/-! ## Slugs of slugs and of two texts -/

/-- The slug of a text joins the runs of slug characters in its lower case. -/
theorem toList_slug (s : String) :
    (slug s).toList = ['_'].intercalate (runs isSlugChar (lower s.toList)) :=
  toList_slug_of_isLowerCase (isLowerCase_lower s.toList)

/-- A slug character is in lower case. -/
theorem lowerChar_of_isSlugChar (h : isSlugChar c = true) : lowerChar c = [c] :=
  isSlugChar_forall (P := fun c => lowerChar c = [c]) (by decide +kernel) h

/-- A slug is in lower case. -/
theorem lower_slug (s : String) : lower (slug s).toList = (slug s).toList := by
  have hchar : ∀ c ∈ (slug s).toList, lowerChar c = [c] := by
    intro c hc
    rcases mem_slug hc with hc | rfl
    · exact lowerChar_of_isSlugChar hc
    · rfl
  rw [lower, List.flatMap_congr hchar, List.flatMap_singleton']

/-- The slug of a slug is the slug itself: its runs are the ones that were joined. -/
theorem slug_slug (s : String) : slug (slug s) = slug s := by
  rw [← String.toList_inj, toList_slug (slug s), lower_slug, toList_slug s, runs_intercalate rfl]
  exact fun word hword => ⟨ne_nil_of_mem_runs hword, fun c => forall_of_mem_runs hword⟩

/-- Joining all words of two texts is joining those of each, and then the two, if there are two. -/
theorem intercalate_append_filter (sep : List Char) {words more : List (List Char)}
    (hwords : ∀ word ∈ words, word ≠ []) (hmore : ∀ word ∈ more, word ≠ []) :
    sep.intercalate (words ++ more) =
      sep.intercalate ([sep.intercalate words, sep.intercalate more].filter (· ≠ [])) := by
  -- A list of words that is empty joins to nothing, and is left out.
  by_cases hfirst : words = []
  · by_cases hsecond : more = []
    · simp [hfirst, hsecond]
    · simp [hfirst, intercalate_ne_nil sep hmore hsecond]
  · by_cases hsecond : more = []
    · simp [hsecond, intercalate_ne_nil sep hwords hfirst]
    · rw [intercalate_append sep hfirst hsecond]
      simp [intercalate_ne_nil sep hwords hfirst, intercalate_ne_nil sep hmore hsecond]

/-- The slug of two texts with a space between them joins their slugs, if both have one. -/
theorem slug_append (s t : String) :
    slug (s ++ " " ++ t) = "_".intercalate ([slug s, slug t].filter (· ≠ "")) := by
  have hruns : runs isSlugChar (lower (s ++ " " ++ t).toList) =
      runs isSlugChar (lower s.toList) ++ runs isSlugChar (lower t.toList) := by
    have hspace : isSlugChar ' ' = false := rfl
    rw [← runs_append_cons hspace]
    simp [lower, lowerChar_of_ne, List.flatMap_append]
  have hlists : ([slug s, slug t].filter (· ≠ "")).map String.toList =
      ([slug s, slug t].map String.toList).filter (· ≠ []) := by
    simp only [List.filter_map, Function.comp_def, ne_eq, String.toList_eq_nil_iff]
  rw [← String.toList_inj, toList_slug, hruns,
    intercalate_append_filter _ (fun _ => ne_nil_of_mem_runs) (fun _ => ne_nil_of_mem_runs),
    ← toList_slug, ← toList_slug, String.toList_intercalate, hlists]
  rfl

/-! ## What a slug is -/

/-- **The slug of a text joins the runs of slug characters in its lower case**, whatever this is
beyond ASCII. So it is empty or matches `[a-z0-9]+(_[a-z0-9]+)*`, it is the slug of itself, and the
slug of two texts joins the slugs of the two. -/
theorem slug_joins_runs (s : String) :
    IsLowerCase s.toList (lower s.toList) ∧
    (∀ low, IsLowerCase s.toList low →
      (slug s).toList = ['_'].intercalate (runs isSlugChar low)) ∧
    (slug s = "" ∨ (slug s).toList ∈ slugWords * moreWords) ∧
    (∀ c ∈ (slug s).toList, c.toNat < 128) ∧
    slug (slug s) = slug s ∧
    ∀ t, slug (s ++ " " ++ t) = "_".intercalate ([slug s, slug t].filter (· ≠ "")) := by
  refine ⟨isLowerCase_lower _, fun low => toList_slug_of_isLowerCase, ?form, ?ascii, slug_slug s,
    slug_append s⟩
  case form =>
    by_cases hempty : slug s = ""
    · exact .inl hempty
    · exact .inr (isSlug_slug hempty).mem_slugWords_mul_moreWords
  case ascii => exact fun c hc => toNat_lt_of_isNameChar (isNameChar_of_mem_slug hc)

/-- The last letter of a word is lowered in its own way, the Kelvin sign is a letter of the slug,
and the combining dot behind the lower case of the dotted capital I makes a gap. -/
theorem slug_joins_runs_sigma :
    IsLowerCase "\u039f\u03a3 2\u212a_\u0130x".toList
      ['\u03bf', '\u03c2', ' ', '2', 'k', '_', 'i', '\u0307', 'x'] ∧
    (slug "\u039f\u03a3 2\u212a_\u0130x").toList = ['_'].intercalate
      (runs isSlugChar ['\u03bf', '\u03c2', ' ', '2', 'k', '_', 'i', '\u0307', 'x']) ∧
    slug "\u039f\u03a3 2\u212a_\u0130x" = "2k_i_x" := by
  have hend : IsLowerCase [' ', '2', '\u212a', '_', '\u0130', 'x']
      [' ', '2', 'k', '_', 'i', '\u0307', 'x'] :=
    .ascii (by decide) <| .ascii (by decide) <| .kelvin <| .ascii (by decide) <| .dotted <|
      .ascii (by decide) .nil
  -- The capital omicron and the final sigma have two different kinds of lower case.
  have hlow : IsLowerCase "\u039f\u03a3 2\u212a_\u0130x".toList
      ['\u03bf', '\u03c2', ' ', '2', 'k', '_', 'i', '\u0307', 'x'] :=
    @IsLowerCase.beyond _ ['\u03bf'] _ _ (by decide) (by decide) (by decide) (by decide)
        (List.forall_mem_singleton.2 (by decide)) <|
      @IsLowerCase.beyond _ ['\u03c2'] _ _ (by decide) (by decide) (by decide) (by decide)
        (List.forall_mem_singleton.2 (by decide)) hend
  obtain ⟨-, hslug, -⟩ := slug_joins_runs "\u039f\u03a3 2\u212a_\u0130x"
  exact ⟨hlow, hslug _ hlow, by decide +kernel⟩

end AgentFlow.Text
