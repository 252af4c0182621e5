import AgentFlow.Text.WholeWord
import AgentFlow.Proofs.Lists
import AgentFlow.Proofs.Text.LowerCase

/-!
# Letters up to case

Whatever its case, a small letter is found wherever a character has the same lower case or the same
upper case (`sameLetter_iff`). Beyond ASCII these are four: the Kelvin sign for k, the dotted
capital I and the dotless i for i, and the long s for s.
-/

namespace AgentFlow.Text

/-- The characters are the same up to case: their lower cases start with the same character, or
their upper cases are the same. -/
def SameCase (a c : Char) : Prop :=
  (lowerChar a).head? = (lowerChar c).head? ∨ upperChar a = upperChar c

instance (a c : Char) : Decidable (SameCase a c) := inferInstanceAs (Decidable (_ ∨ _))

variable {letter c u : Char}

/-! ## Upper case beyond ASCII -/

theorem two_le_length_of_mem_upperExpansions :
    ∀ entry ∈ upperExpansions, 2 ≤ entry.2.length := by decide +kernel

/-- All runs but those of the dotless i and of the long s lead beyond ASCII. -/
theorem le_of_mem_upperRuns : ∀ r ∈ upperRuns, 128 ≤ r.1 + r.2.2.2 ∨
    r = (0x131, 0x131, 1, -232) ∨ r = (0x17f, 0x17f, 1, -300) := by decide +kernel

/-- A number is the code of a character, or of none, and then the character is the null character.
-/
theorem toNat_ofNat_eq_or (n : Nat) : (Char.ofNat n).toNat = n ∨ (Char.ofNat n).toNat = 0 := by
  by_cases hvalid : n.isValidChar
  · rw [Char.ofNat, dif_pos hvalid]
    exact .inl rfl
  · rw [Char.ofNat, dif_neg hvalid]
    exact .inr rfl

/-- Beyond ASCII, no other character has an upper case in ASCII. -/
theorem upperChar_ne (hc : 128 ≤ c.toNat) (hdotless : c.toNat ≠ 0x131) (hlong : c.toNat ≠ 0x17f)
    (hpos : 0 < u.toNat) (hu : u.toNat < 128) : upperChar c ≠ [u] := by
  intro h
  -- An upper case has several characters, or lies a fixed way off, or is the character itself.
  rw [upperChar, if_neg (by omega)] at h
  split at h
  · next codes hcodes =>
    have hlength : 2 ≤ codes.length :=
      two_le_length_of_mem_upperExpansions _ (mem_of_lookup hcodes)
    have := congrArg List.length h
    rw [List.length_map, List.length_singleton] at this
    omega
  · split at h
    · next r hr =>
      have hbounds := List.find?_some hr
      simp only [Bool.and_eq_true, decide_eq_true_eq] at hbounds
      obtain ⟨⟨hlow, hhigh⟩, -⟩ := hbounds
      rcases le_of_mem_upperRuns r (List.mem_of_find?_eq_some hr) with hle | rfl | rfl
      · have hcode := congrArg Char.toNat (List.singleton_inj.1 h)
        have := toNat_ofNat_eq_or (c.toNat + r.2.2.2).toNat
        omega
      · exact hdotless (Nat.le_antisymm hhigh hlow)
      · exact hlong (Nat.le_antisymm hhigh hlow)
    · obtain rfl := List.singleton_inj.1 h
      omega

/-! ## Small letters -/

def smallLetters : List Char := "abcdefghijklmnopqrstuvwxyz".toList

/-- What holds of each of the small letters. -/
theorem smallLetter_forall {P : Char → Prop} [DecidablePred P]
    (h : smallLetters.all (fun letter => decide (P letter)) = true)
    (hletter : letter.isLower = true) : P letter := by
  have hlt : letter.toNat < 128 := by
    have hle : letter.toNat ≤ 'z'.toNat :=
      UInt32.le_iff_toNat_le.1 (of_decide_eq_true (Bool.and_eq_true_iff.1 hletter).2)
    exact Nat.lt_of_le_of_lt hle (by decide)
  refine of_decide_eq_true (List.all_eq_true.1 h letter ?_)
  revert hletter
  exact ascii_forall (P := fun c => c.isLower = true → c ∈ smallLetters) (by decide +kernel) hlt

/-- In ASCII, the lower case of a character is that of its upper case. -/
theorem toLower_toUpper (hc : c.toNat < 128) : c.toUpper.toLower = c.toLower :=
  ascii_forall (P := fun c => c.toUpper.toLower = c.toLower) (by decide +kernel) hc

/-- A small letter, and what its upper case is, are characters of ASCII. -/
theorem smallLetter_bounds (hletter : letter.isLower = true) :
    letter.toNat < 128 ∧ letter.toLower = letter ∧ 0 < letter.toUpper.toNat ∧
      letter.toUpper.toNat < 128 :=
  smallLetter_forall (P := fun c => c.toNat < 128 ∧ c.toLower = c ∧ 0 < c.toUpper.toNat ∧
    c.toUpper.toNat < 128) (by decide +kernel) hletter

/-- To be a small letter up to case is to have it as lower case, or to have its upper case. -/
theorem sameCase_iff (hletter : letter.isLower = true) : SameCase letter c ↔
    (lowerChar c).head? = some letter ∨ upperChar c = [letter.toUpper] := by
  obtain ⟨hlt, hlower, -⟩ := smallLetter_bounds hletter
  rw [SameCase, lowerChar_of_lt hlt, hlower, upperChar, if_pos hlt, List.head?_cons, eq_comm,
    @eq_comm _ [letter.toUpper]]

theorem sameLetter_iff_toLower_eq (hc : c.toNat < 128) :
    sameLetter letter c = true ↔ c.toLower = letter := by
  have hnone : c.toNat ≠ 0x17f ∧ c.toNat ≠ 0x212a ∧ c.toNat ≠ 0x130 ∧ c.toNat ≠ 0x131 := by omega
  simp [sameLetter, hnone]

/-- In ASCII, to compare in lower case is enough. -/
theorem sameLetter_iff_of_lt (hletter : letter.isLower = true) (hc : c.toNat < 128) :
    sameLetter letter c = true ↔ SameCase letter c := by
  obtain ⟨hlt, hlower, -⟩ := smallLetter_bounds hletter
  rw [sameLetter_iff_toLower_eq hc, sameCase_iff hletter, lowerChar_of_lt hc, upperChar,
    if_pos hc, List.head?_cons, Option.some.injEq, List.singleton_inj]
  constructor
  · exact .inl
  · rintro (h | h)
    · exact h
    · rw [← toLower_toUpper hc, h, toLower_toUpper hlt, hlower]

/-! ## Beyond ASCII -/

/-- The characters beyond ASCII that are a small letter up to case. -/
def otherCases : List Char := ['\u017f', '\u212a', '\u0130', '\u0131']

theorem toNat_ne_of_notMem_otherCases (h : c ∉ otherCases) :
    c.toNat ≠ 0x17f ∧ c.toNat ≠ 0x212a ∧ c.toNat ≠ 0x130 ∧ c.toNat ≠ 0x131 := by
  have hne : ∀ d ∈ otherCases, c.toNat ≠ d.toNat := fun d hd heq => h (Char.toNat_inj.1 heq ▸ hd)
  exact ⟨hne '\u017f' (by decide), hne '\u212a' (by decide), hne '\u0130' (by decide),
    hne '\u0131' (by decide)⟩

section

variable (hletter : letter.isLower = true) (hc : 128 ≤ c.toNat)

include hletter hc

/-- The search finds no other characters beyond ASCII than the four. -/
theorem mem_otherCases_of_sameLetter (h : sameLetter letter c = true) : c ∈ otherCases := by
  by_contra hother
  have hnone := toNat_ne_of_notMem_otherCases hother
  have heq : c = letter := by simpa [sameLetter, toLower_of_le hc, hnone] using h
  have hlt : letter.toNat < 128 := (smallLetter_bounds hletter).1
  rw [← heq] at hlt
  omega

/-- No other characters beyond ASCII than the four are a small letter up to case. -/
theorem mem_otherCases_of_sameCase (h : SameCase letter c) : c ∈ otherCases := by
  by_contra hother
  obtain ⟨hlong, -, -, hdotless⟩ := toNat_ne_of_notMem_otherCases hother
  obtain ⟨hlt, -, hpos, hupper⟩ := smallLetter_bounds hletter
  have hlower : lowerChar c = [c] := by
    rw [lowerChar_of_ne (by rintro rfl; exact hother (by decide))
      (by rintro rfl; exact hother (by decide)), toLower_of_le hc]
  rw [sameCase_iff hletter, hlower] at h
  rcases h with heq | heq
  · obtain rfl := Option.some.inj heq
    omega
  · exact upperChar_ne hc hdotless hlong hpos hupper heq

end

/-- Of the four, the search finds the right ones, for each of the small letters. -/
theorem sameLetter_iff_of_mem_otherCases (hletter : letter.isLower = true) (h : c ∈ otherCases) :
    sameLetter letter c = true ↔ SameCase letter c := by
  have hall : otherCases.all (fun d => decide (sameLetter letter d = true ↔ SameCase letter d)) =
      true :=
    smallLetter_forall (P := fun letter => otherCases.all
      (fun d => decide (sameLetter letter d = true ↔ SameCase letter d)) = true)
      (by decide +kernel) hletter
  exact of_decide_eq_true (List.all_eq_true.1 hall c h)

/-- **A small letter stands where a character is the same up to case.** -/
theorem sameLetter_iff (hletter : letter.isLower = true) :
    sameLetter letter c = true ↔ SameCase letter c := by
  rcases Nat.lt_or_ge c.toNat 128 with hc | hc
  · exact sameLetter_iff_of_lt hletter hc
  have hother : c ∈ otherCases → (sameLetter letter c = true ↔ SameCase letter c) :=
    sameLetter_iff_of_mem_otherCases hletter
  constructor
  · exact fun h => (hother (mem_otherCases_of_sameLetter hletter hc h)).1 h
  · exact fun h => (hother (mem_otherCases_of_sameCase hletter hc h)).2 h

end AgentFlow.Text
