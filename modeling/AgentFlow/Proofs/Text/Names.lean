import AgentFlow.Text.CamelCase
import AgentFlow.Proofs.Text.Fresh

/-!
# Names

A name starts with a small letter and goes on with letters, digits and underscores. Numbering names
until they are free and putting a name in camel case give names again (`isName_of_mem_freshAll`,
`IsName.camelCase`).
-/

namespace AgentFlow.Text

def isNameChar (c : Char) : Bool := c.isAlphanum || c == '_'

/-- A small letter, and letters, digits and underscores behind it. -/
structure IsName (s : String) : Prop where
  head : ∃ c, s.toList.head? = some c ∧ c.isLower = true
  chars : ∀ c ∈ s.toList, isNameChar c = true

variable {c : Char} {cs : List Char} {s t : String}

/-! ## Characters -/

/-- What holds of each of the 128 characters of ASCII. -/
theorem ascii_forall {P : Char → Prop} (h : ∀ n < 128, P (Char.ofNat n)) (hc : c.toNat < 128) :
    P c := by
  have := h c.toNat hc
  rwa [Char.ofNat_toNat] at this

/-- Names are written in ASCII. -/
theorem toNat_lt_of_isNameChar (h : isNameChar c = true) : c.toNat < 128 := by
  have hrange : ∀ high : UInt32, high.toNat < 128 → c.val ≤ high → c.toNat < 128 :=
    fun _ hhigh hle => Nat.lt_of_le_of_lt (UInt32.le_iff_toNat_le.1 hle) hhigh
  rw [isNameChar, Bool.or_eq_true, beq_iff_eq] at h
  rcases h with h | rfl
  · change (c.isUpper || c.isLower || c.isDigit) = true at h
    rw [Bool.or_eq_true, Bool.or_eq_true] at h
    -- Letters of each kind and digits are ranges.
    rcases h with (h | h) | h
    · exact hrange 'Z'.val (by decide) (of_decide_eq_true h).2
    · exact hrange 'z'.val (by decide) (of_decide_eq_true (Bool.and_eq_true_iff.1 h).2)
    · exact hrange '9'.val (by decide) (of_decide_eq_true (Bool.and_eq_true_iff.1 h).2)
  · decide

/-- What holds of the name characters among the 128, which are all of them. -/
theorem isNameChar_forall {P : Char → Prop}
    (h : ∀ n < 128, isNameChar (Char.ofNat n) = true → P (Char.ofNat n))
    (hc : isNameChar c = true) : P c :=
  ascii_forall (P := fun c => isNameChar c = true → P c) h (toNat_lt_of_isNameChar hc) hc

/-- Slug characters may stand in names. -/
theorem isNameChar_of_isSlugChar (h : isSlugChar c = true) : isNameChar c = true := by
  have hlt : c.toNat < 128 := by
    simp only [isSlugChar, Bool.or_eq_true, Bool.and_eq_true, decide_eq_true_eq, Char.le_def,
      UInt32.le_iff_toNat_le] at h
    rcases h with h | h <;> exact Nat.lt_of_le_of_lt h.2 (by decide)
  revert h
  exact ascii_forall (P := fun c => isSlugChar c = true → isNameChar c = true)
    (by decide +kernel) hlt

theorem isSlugChar_forall {P : Char → Prop}
    (h : ∀ n < 128, isSlugChar (Char.ofNat n) = true → P (Char.ofNat n))
    (hc : isSlugChar c = true) : P c :=
  ascii_forall (P := fun c => isSlugChar c = true → P c) h
    (toNat_lt_of_isNameChar (isNameChar_of_isSlugChar hc)) hc

/-- A slug character that is no digit is a small letter. -/
theorem isLower_of_isSlugChar (h : isSlugChar c = true) (hdigit : c.isDigit = false) :
    c.isLower = true :=
  isSlugChar_forall (P := fun c => c.isDigit = false → c.isLower = true)
    (by decide +kernel) h hdigit

theorem isNameChar_toUpper (h : isNameChar c = true) : isNameChar c.toUpper = true :=
  isNameChar_forall (P := fun c => isNameChar c.toUpper = true) (by decide +kernel) h

theorem isNameChar_of_mem_repr {n : Nat} (h : c ∈ n.repr.toList) : isNameChar c = true :=
  isNameChar_of_isSlugChar (isSlugChar_of_mem_repr h)

/-! ## Names with something behind them -/

/-- A name is a small letter and what follows it. -/
theorem IsName.exists_cons (h : IsName s) : ∃ c cs, s.toList = c :: cs ∧ c.isLower = true := by
  obtain ⟨c, hhead, hlower⟩ := h.head
  obtain ⟨cs, hcs⟩ := List.head?_eq_some_iff.1 hhead
  exact ⟨c, cs, hcs, hlower⟩

/-- A name stays within its line. -/
theorem IsName.newline_notMem (h : IsName s) : '\n' ∉ s.toList := by
  intro hmem
  cases h.chars '\n' hmem

/-- Characters of names behind a name make a name. -/
theorem IsName.append (hs : IsName s) (ht : ∀ c ∈ t.toList, isNameChar c = true) :
    IsName (s ++ t) := by
  obtain ⟨c, hhead, hlower⟩ := hs.head
  constructor
  case head =>
    refine ⟨c, ?_, hlower⟩
    rw [String.toList_append, List.head?_append, hhead]
    rfl
  case chars =>
    intro d hd
    rw [String.toList_append, List.mem_append] at hd
    exact hd.elim (hs.chars d) (ht d)

/-- A numbered name is a name. -/
theorem IsName.numbered {sep : String} (hs : IsName s)
    (hsep : ∀ c ∈ sep.toList, isNameChar c = true) (n : Nat) : IsName (numbered sep s n) :=
  (hs.append hsep).append fun _ => isNameChar_of_mem_repr

/-- Keeping names apart gives names. -/
theorem isName_of_mem_freshAll {sep : String} (hsep : ∀ c ∈ sep.toList, isNameChar c = true)
    {used candidates : List String} (hall : ∀ base ∈ candidates, IsName base) {name : String}
    (h : name ∈ freshAll sep used candidates) : IsName name := by
  obtain ⟨base, hbase, rfl | ⟨n, rfl⟩⟩ := exists_of_mem_freshAll h
  · exact hall name hbase
  · exact (hall base hbase).numbered hsep n

/-! ## Slugs -/

/-- A slug is made of characters of names. -/
theorem isNameChar_of_mem_slug (h : c ∈ (slug s).toList) : isNameChar c = true := by
  rcases mem_slug h with hc | rfl
  · exact isNameChar_of_isSlugChar hc
  · rfl

/-- A slug does not start with an underscore. -/
theorem isSlugChar_of_head?_slug (h : (slug s).toList.head? = some c) : isSlugChar c = true := by
  refine (mem_slug (List.mem_of_head? h)).resolve_right ?_
  rintro rfl
  -- Underscores at the ends are trimmed off.
  have htrimmed : trimBy (· == '_') (slugChars s.toList) = slugChars s.toList := trimBy_trimBy _ _
  rw [slug, String.toList_ofList] at h
  have := (trimBy_eq_self_iff.1 htrimmed).1 '_' h
  simp at this

/-! ## Camel case -/

/-- A text that does not start with an underscore starts with its first part. -/
theorem exists_underscoreParts_cons (hc : c ≠ '_') (cs : List Char) :
    ∃ part more, underscoreParts (c :: cs) = (c :: part) :: more := by
  rw [underscoreParts, beq_eq_false_iff_ne.2 hc]
  cases underscoreParts cs with
  | nil => exact ⟨[], [], rfl⟩
  | cons part more => exact ⟨part, more, rfl⟩

/-- The parts between underscores have no characters of their own. -/
theorem mem_of_mem_underscoreParts {part : List Char} (hpart : part ∈ underscoreParts cs)
    (hc : c ∈ part) : c ∈ cs := by
  induction cs generalizing part with
  | nil =>
    obtain rfl := List.mem_singleton.1 hpart
    exact hc
  | cons a rest ih =>
    rw [underscoreParts] at hpart
    split at hpart
    · rcases List.mem_cons.1 hpart with rfl | hpart
      · cases hc
      · exact List.mem_cons_of_mem a (ih hpart hc)
    · split at hpart
      · obtain rfl := List.mem_singleton.1 hpart
        rw [List.mem_singleton.1 hc]
        exact List.mem_cons_self
      · next first more heq =>
        rcases List.mem_cons.1 hpart with rfl | hpart
        · rcases List.mem_cons.1 hc with rfl | hc
          · exact List.mem_cons_self
          · exact List.mem_cons_of_mem a (ih (by rw [heq]; exact List.mem_cons_self) hc)
        · exact List.mem_cons_of_mem a (ih (by rw [heq]; exact List.mem_cons_of_mem _ hpart) hc)

theorem isNameChar_of_mem_capitalized (hall : ∀ c ∈ cs, isNameChar c = true)
    (h : c ∈ capitalized cs) : isNameChar c = true := by
  cases cs with
  | nil => cases h
  | cons a rest =>
    obtain ⟨ha, hrest⟩ := List.forall_mem_cons.1 hall
    -- The head is a character of ASCII, so its upper case is one character.
    rw [capitalized, upperChar, if_pos (toNat_lt_of_isNameChar ha), List.mem_append,
      List.mem_singleton] at h
    rcases h with rfl | h
    · exact isNameChar_toUpper ha
    · exact hrest c h

/-- A name in camel case is a name. -/
theorem IsName.camelCase (h : IsName s) : IsName (camelCase s) := by
  obtain ⟨c, rest, hs, hlower⟩ := h.exists_cons
  -- The first part is not empty, so it keeps the small letter at its head.
  have hne : c ≠ '_' := by
    rintro rfl
    cases hlower
  obtain ⟨part, more, hparts⟩ := exists_underscoreParts_cons hne rest
  have hchars : ∀ piece ∈ (c :: part) :: more, ∀ d ∈ piece, isNameChar d = true := by
    intro piece hpiece d hd
    rw [← hparts] at hpiece
    exact h.chars d (hs ▸ mem_of_mem_underscoreParts hpiece hd)
  obtain ⟨hfirst, hmore⟩ := List.forall_mem_cons.1 hchars
  have heq : (Text.camelCase s).toList = (c :: part) ++ more.flatMap capitalized := by
    simp only [Text.camelCase, hs, hparts, String.toList_ofList]
  constructor
  case head => exact ⟨c, by rw [heq]; rfl, hlower⟩
  case chars =>
    intro d hd
    rw [heq, List.mem_append, List.mem_flatMap] at hd
    rcases hd with hd | ⟨piece, hpiece, hd⟩
    · exact hfirst d hd
    · exact isNameChar_of_mem_capitalized (hmore piece hpiece) hd

end AgentFlow.Text
