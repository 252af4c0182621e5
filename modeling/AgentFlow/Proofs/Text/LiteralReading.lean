import AgentFlow.Json.Token
import AgentFlow.Text.Literal

/-!
# Literals can be read back

Reading the literal of a text by the rules of JSON gives the text, whatever its characters are, and
stops right behind the closing quote (`readLiteral_literalChars`). A literal is made of printable
ASCII characters (`isPrintableAscii_of_mem_literalChars`), so no line ends inside it, and nothing
between its quotes ends it early (`isSealed_flatMap_escapeChar`).
-/

namespace AgentFlow.Text

open Json

/-! ## Escapes -/

def isPrintableAscii (c : Char) : Bool := 0x20 ≤ c.toNat && c.toNat ≤ 0x7e

/-- How a character may stand in a literal: as itself, as a letter behind a backslash, as one code
unit, or as the two halves of a pair. -/
inductive Escaped (c : Char) : List Char → Prop where
  | itself (hquote : c ≠ '\x22') (hbackslash : c ≠ '\x5c')
      (hprintable : isPrintableAscii c = true) : Escaped c [c]
  | short {e : Char} (hprintable : isPrintableAscii e = true) (hunit : e ≠ 'u')
      (hshort : shortEscape? e = some c) : Escaped c ['\x5c', e]
  | unit (h : c.toNat < 0x10000) : Escaped c (escapeUnit c.toNat)
  | halves (h : 0x10000 ≤ c.toNat) :
    Escaped c (escapeUnit (0xd800 + (c.toNat - 0x10000) / 0x400) ++
      escapeUnit (0xdc00 + (c.toNat - 0x10000) % 0x400))

/-- Characters with the same code point are the same. -/
theorem eq_of_toNat_eq {c d : Char} (h : c.toNat = d.toNat) : c = d := by
  rw [← Char.ofNat_toNat c, h, Char.ofNat_toNat]

/-- The letters that stand for one character behind a backslash. -/
theorem mem_of_shortEscape? {c e : Char} (h : shortEscape? e = some c) :
    e ∈ ['\x22', '\x5c', '/', 'b', 'f', 'n', 'r', 't'] := by
  refine Decidable.byContradiction fun hmem => ?_
  simp only [List.mem_cons, List.not_mem_nil, or_false, not_or] at hmem
  simp [shortEscape?, hmem] at h

/-- Every character is escaped in one of these ways. -/
theorem escaped_escapeChar (c : Char) : Escaped c (escapeChar c) := by
  have hshort : ∀ {d e : Char}, c.toNat = d.toNat → isPrintableAscii e = true → e ≠ 'u' →
      shortEscape? e = some d → Escaped c ['\x5c', e] := by
    intro d e hd hprintable hunit he
    exact .short hprintable hunit (he.trans (congrArg some (eq_of_toNat_eq hd).symm))
  simp only [escapeChar, beq_iff_eq, Bool.and_eq_true, decide_eq_true_eq]
  split
  · next h => exact hshort (d := '\x22') h rfl (by decide) rfl
  split
  · next h => exact hshort (d := '\x5c') h rfl (by decide) rfl
  split
  · next hquote hbackslash h =>
    refine .itself (fun heq => hquote (heq ▸ rfl)) (fun heq => hbackslash (heq ▸ rfl)) ?_
    simpa [isPrintableAscii] using h
  split
  · next h => exact hshort (d := '\n') h rfl (by decide) rfl
  split
  · next h => exact hshort (d := '\r') h rfl (by decide) rfl
  split
  · next h => exact hshort (d := '\t') h rfl (by decide) rfl
  split
  · next h => exact hshort (d := '\x08') h rfl (by decide) rfl
  split
  · next h => exact hshort (d := '\x0c') h rfl (by decide) rfl
  split
  · next h => exact .unit h
  · next h => exact .halves (Nat.le_of_not_lt h)

/-! ## The reader -/

/-- The text that the scanner of JSON completes first, and what follows it. -/
def readText (mode : Mode) : List Char → Option (String × List Char)
  | [] => none
  | c :: cs =>
    match mode.step .unlimited c with
    | ([.text s _], _) => some (s, cs)
    | (_, some mode) => readText mode cs
    | (_, none) => none

/-- The text of a literal, and what follows the literal. -/
def readLiteral : List Char → Option (String × List Char)
  | '\x22' :: cs => readText (.text {}) cs
  | _ => none

variable {seen : Seen} {mode mode' : Mode} {c : Char} {cs rest : List Char}

/-- A step that completes no text goes on to the next character. -/
theorem readText_of_step (h : mode.step .unlimited c = ([], some mode')) :
    readText mode (c :: cs) = readText mode' cs := by
  rw [readText, h]

/-- The closing quote completes the text. -/
theorem readText_quote : readText (.text seen) ('\x22' :: cs) =
    some (String.ofList seen.chars.reverse, cs) := rfl

/-! ## Code units -/

theorem hexDigit_mod (n : Nat) : hexDigit (n % 16) = hexDigit n := by simp [hexDigit]

/-- A digit is read as the number that it writes. -/
theorem hexValue?_hexDigit (n : Nat) : hexValue? (hexDigit n) = some (n % 16) := by
  have hdigits : ∀ d < 16, hexValue? (hexDigit d) = some d := by decide
  rw [← hexDigit_mod]
  exact hdigits (n % 16) (Nat.mod_lt n (by decide))

/-- A character that has no value is no digit. -/
theorem hexDigit_ne (h : hexValue? c = none) (n : Nat) : hexDigit n ≠ c := by
  rintro rfl
  rw [hexValue?_hexDigit] at h
  cases h

/-- Four digits make up a unit again. -/
theorem fourDigits_eq {unit : Nat} (h : unit < 0x10000) :
    16 * (16 * (16 * (16 * 0 + unit / 16 / 16 / 16 % 16) + unit / 16 / 16 % 16) +
      unit / 16 % 16) + unit % 16 = unit := by omega

/-- A digit of a code unit that is not its last one. -/
theorem readText_code {high : Option Nat} {missing value n : Nat} (hmissing : 1 < missing) :
    readText (.code seen high missing value) (hexDigit n :: cs) =
      readText (.code seen high (missing - 1) (16 * value + n % 16)) cs := by
  refine readText_of_step ?_
  rw [Mode.step, hexValue?_hexDigit]
  exact if_neg (by omega)

/-- The last digit of a code unit. -/
theorem readText_code_last {high : Option Nat} {value n : Nat}
    (h : endCode? .unlimited seen high (16 * value + n % 16) = some mode) :
    readText (.code seen high 1 value) (hexDigit n :: cs) = readText mode cs := by
  refine readText_of_step ?_
  rw [Mode.step, hexValue?_hexDigit]
  simp only [Nat.le_refl, ↓reduceIte, h]

/-- Four digits are read as one code unit. -/
theorem readText_hexDigits {high : Option Nat} {unit : Nat} (hunit : unit < 0x10000)
    (h : endCode? .unlimited seen high unit = some mode) :
    readText (.code seen high 4 0) (hexDigits 4 unit ++ rest) = readText mode rest := by
  simp only [hexDigits, List.nil_append, List.cons_append]
  rw [readText_code (by decide), readText_code (by decide), readText_code (by decide)]
  refine readText_code_last ?_
  rw [fourDigits_eq hunit]
  exact h

/-- A unit after a backslash and the letter that announces it. -/
theorem readText_escapeUnit {unit : Nat} (hunit : unit < 0x10000)
    (h : endUnit? .unlimited seen unit = some mode) :
    readText (.text seen) (escapeUnit unit ++ rest) = readText mode rest := by
  have hescape : readText (.text seen) (escapeUnit unit ++ rest) =
      readText (.code seen none 4 0) (hexDigits 4 unit ++ rest) := rfl
  rw [hescape]
  exact readText_hexDigits hunit h

/-- Behind the first half of a pair, the second half completes the character. -/
theorem readText_escapeUnit_low {high low : Nat} (hlow : isLowHalf low = true) :
    readText (.pair seen high) (escapeUnit low ++ rest) =
      readText (.text (seen.push (joinHalves high low))) rest := by
  have hescape : readText (.pair seen high) (escapeUnit low ++ rest) =
      readText (.code seen (some high) 4 0) (hexDigits 4 low ++ rest) := rfl
  rw [hescape]
  refine readText_hexDigits ?_ ?_
  · simp only [isLowHalf, Bool.and_eq_true, decide_eq_true_eq] at hlow
    omega
  · rw [endCode?, if_pos hlow]

/-! ## Characters -/

/-! ### Halves of a pair -/

/-- A character is no half of a surrogate pair. -/
theorem toNat_lt_or_lt (c : Char) : c.toNat < 0xd800 ∨ 0xdfff < c.toNat ∧ c.toNat < 0x110000 :=
  c.valid

/-- No character is the first half of a pair. -/
theorem isHighHalf_toNat (c : Char) : isHighHalf c.toNat = false := by
  have hvalid := toNat_lt_or_lt c
  simp only [isHighHalf, Bool.and_eq_false_iff, decide_eq_false_iff_not]
  omega

/-- No character is the second half of a pair. -/
theorem isLowHalf_toNat (c : Char) : isLowHalf c.toNat = false := by
  have hvalid := toNat_lt_or_lt c
  simp only [isLowHalf, Bool.and_eq_false_iff, decide_eq_false_iff_not]
  omega

/-- The first half of the pair of a character. -/
theorem isHighHalf_high (h : 0x10000 ≤ c.toNat) :
    isHighHalf (0xd800 + (c.toNat - 0x10000) / 0x400) = true := by
  have hvalid := toNat_lt_or_lt c
  simp only [isHighHalf, Bool.and_eq_true, decide_eq_true_eq]
  omega

/-- The second half of a pair. -/
theorem isLowHalf_low (n : Nat) : isLowHalf (0xdc00 + (n - 0x10000) % 0x400) = true := by
  simp only [isLowHalf, Bool.and_eq_true, decide_eq_true_eq]
  omega

/-- The two halves of a character, joined, are the character. -/
theorem joinHalves_halves (h : 0x10000 ≤ c.toNat) :
    joinHalves (0xd800 + (c.toNat - 0x10000) / 0x400) (0xdc00 + (c.toNat - 0x10000) % 0x400) =
      c := by
  have hcode : 0x10000 + (0xd800 + (c.toNat - 0x10000) / 0x400 - 0xd800) * 0x400 +
      (0xdc00 + (c.toNat - 0x10000) % 0x400 - 0xdc00) = c.toNat := by omega
  rw [joinHalves, hcode, Char.ofNat_toNat]

/-! ### The ways to be escaped -/

/-- A character that stands for itself is read as itself. -/
theorem readText_itself (hquote : c ≠ '\x22') (hbackslash : c ≠ '\x5c')
    (hprintable : isPrintableAscii c = true) :
    readText (.text seen) (c :: rest) = readText (.text (seen.push c)) rest := by
  refine readText_of_step ?_
  rw [isPrintableAscii, Bool.and_eq_true, decide_eq_true_eq] at hprintable
  rw [Mode.step, textStep, beq_eq_false_iff_ne.2 hquote, beq_eq_false_iff_ne.2 hbackslash]
  simp [Nat.not_lt.2 hprintable.1]

/-- A letter behind a backslash is read as the character that it stands for. -/
theorem readText_short {e : Char} (hunit : e ≠ 'u') (hshort : shortEscape? e = some c) :
    readText (.text seen) ('\x5c' :: e :: rest) = readText (.text (seen.push c)) rest := by
  have hescape :
      readText (.text seen) ('\x5c' :: e :: rest) = readText (.escape seen) (e :: rest) := rfl
  rw [hescape]
  refine readText_of_step ?_
  rw [Mode.step, escapeStep, beq_eq_false_iff_ne.2 hunit, hshort]
  rfl

/-- A character of one unit is read from its unit. -/
theorem readText_escapeUnit_toNat (h : c.toNat < 0x10000) :
    readText (.text seen) (escapeUnit c.toNat ++ rest) = readText (.text (seen.push c)) rest := by
  refine readText_escapeUnit h ?_
  simp only [endUnit?, isHighHalf_toNat, isLowHalf_toNat, Bool.false_eq_true, ↓reduceIte,
    Char.ofNat_toNat]

/-- A character of two units is read from its halves. -/
theorem readText_escapeUnit_halves (h : 0x10000 ≤ c.toNat) :
    readText (.text seen) (escapeUnit (0xd800 + (c.toNat - 0x10000) / 0x400) ++
      escapeUnit (0xdc00 + (c.toNat - 0x10000) % 0x400) ++ rest) =
        readText (.text (seen.push c)) rest := by
  have hvalid := toNat_lt_or_lt c
  have hfirst : endUnit? .unlimited seen (0xd800 + (c.toNat - 0x10000) / 0x400) =
      some (.pair seen (0xd800 + (c.toNat - 0x10000) / 0x400)) := if_pos (isHighHalf_high h)
  -- The first unit makes the scanner wait for a second one, which completes the character.
  rw [List.append_assoc, readText_escapeUnit (by omega) hfirst,
    readText_escapeUnit_low (isLowHalf_low c.toNat), joinHalves_halves h]

/-- However a character is escaped, the scanner sees it and goes on behind it. -/
theorem Escaped.readText_append {es : List Char} (h : Escaped c es) (seen : Seen)
    (rest : List Char) :
    readText (.text seen) (es ++ rest) = readText (.text (seen.push c)) rest := by
  cases h with
  | itself hquote hbackslash hprintable => exact readText_itself hquote hbackslash hprintable
  | short _ hunit hshort => exact readText_short hunit hshort
  | unit h => exact readText_escapeUnit_toNat h
  | halves h => exact readText_escapeUnit_halves h

/-! ## Literals -/

/-- The scanner sees the characters of the text one by one, until the quote. -/
theorem readText_flatMap_escapeChar (seen : Seen) (cs rest : List Char) :
    readText (.text seen) (cs.flatMap escapeChar ++ '\x22' :: rest) =
      some (String.ofList (seen.chars.reverse ++ cs), rest) := by
  induction cs generalizing seen with
  | nil => rw [List.flatMap_nil, List.nil_append, readText_quote, List.append_nil]
  | cons c cs ih =>
    rw [List.flatMap_cons, List.append_assoc, (escaped_escapeChar c).readText_append, ih, Seen.push]
    simp

/-- **A literal can be read back**, whatever stands behind it. -/
theorem readLiteral_literalChars (cs rest : List Char) :
    readLiteral (literalChars cs ++ rest) = some (String.ofList cs, rest) := by
  have h := readText_flatMap_escapeChar {} cs rest
  rw [List.reverse_nil, List.nil_append] at h
  simp only [literalChars, List.cons_append, List.append_assoc, List.nil_append]
  exact h

theorem toList_literal (s : String) : (literal s).toList = literalChars s.toList :=
  String.toList_ofList

/-- The same for the literal of a text. -/
theorem readLiteral_literal (s : String) (rest : List Char) :
    readLiteral ((literal s).toList ++ rest) = some (s, rest) := by
  rw [toList_literal, readLiteral_literalChars, String.ofList_toList]

/-! ## What literals are made of -/

theorem isPrintableAscii_hexDigit (n : Nat) : isPrintableAscii (hexDigit n) = true := by
  have hdigits : ∀ d < 16, isPrintableAscii (hexDigit d) = true := by decide
  rw [← hexDigit_mod]
  exact hdigits (n % 16) (Nat.mod_lt n (by decide))

/-- A code unit is written in printable ASCII. -/
theorem isPrintableAscii_of_mem_escapeUnit {n : Nat} (h : c ∈ escapeUnit n) :
    isPrintableAscii c = true := by
  simp only [escapeUnit, hexDigits, List.nil_append, List.cons_append, List.mem_cons,
    List.not_mem_nil, or_false] at h
  rcases h with rfl | rfl | rfl | rfl | rfl | rfl
  · rfl
  · rfl
  all_goals exact isPrintableAscii_hexDigit _

theorem Escaped.isPrintableAscii_of_mem {d : Char} {es : List Char} (h : Escaped d es)
    (hc : c ∈ es) : isPrintableAscii c = true := by
  cases h with
  | itself _ _ hprintable => rwa [List.mem_singleton.1 hc]
  | short hprintable _ _ =>
    rcases List.mem_cons.1 hc with rfl | hc
    · rfl
    · rwa [List.mem_singleton.1 hc]
  | unit _ => exact isPrintableAscii_of_mem_escapeUnit hc
  | halves _ =>
    rcases List.mem_append.1 hc with hc | hc <;> exact isPrintableAscii_of_mem_escapeUnit hc

/-- A literal is made of printable characters of ASCII. -/
theorem isPrintableAscii_of_mem_literalChars (h : c ∈ literalChars cs) :
    isPrintableAscii c = true := by
  rw [literalChars, List.cons_append, List.mem_cons, List.mem_append, List.mem_singleton] at h
  rcases h with rfl | h | rfl
  · rfl
  · obtain ⟨d, -, h⟩ := List.mem_flatMap.1 h
    exact (escaped_escapeChar d).isPrintableAscii_of_mem h
  · rfl

/-- Characters between quotes in which no quote ends the literal and no backslash escapes the
closing one: quotes and backslashes stand behind a backslash only. -/
inductive IsSealed : List Char → Prop where
  | nil : IsSealed []
  | plain {c : Char} {cs : List Char} (hquote : c ≠ '\x22') (hbackslash : c ≠ '\x5c')
      (h : IsSealed cs) : IsSealed (c :: cs)
  | escaped {c : Char} {cs : List Char} (h : IsSealed cs) : IsSealed ('\x5c' :: c :: cs)

/-- Sealed parts make up a sealed whole. -/
theorem IsSealed.append {ds : List Char} (hcs : IsSealed cs) (hds : IsSealed ds) :
    IsSealed (cs ++ ds) := by
  induction hcs with
  | nil => exact hds
  | plain hquote hbackslash _ ih => exact .plain hquote hbackslash ih
  | escaped _ ih => exact .escaped ih

theorem isSealed_escapeUnit (n : Nat) : IsSealed (escapeUnit n) := by
  have hplain : ∀ n cs, IsSealed cs → IsSealed (hexDigit n :: cs) := fun n _ h =>
    .plain (hexDigit_ne rfl n) (hexDigit_ne rfl n) h
  exact .escaped (hplain _ _ (hplain _ _ (hplain _ _ (hplain _ _ .nil))))

theorem Escaped.isSealed {es : List Char} (h : Escaped c es) : IsSealed es := by
  cases h with
  | itself hquote hbackslash _ => exact .plain hquote hbackslash .nil
  | short _ _ _ => exact .escaped .nil
  | unit _ => exact isSealed_escapeUnit _
  | halves _ => exact (isSealed_escapeUnit _).append (isSealed_escapeUnit _)

/-- Between its quotes, a literal is sealed. -/
theorem isSealed_flatMap_escapeChar (cs : List Char) : IsSealed (cs.flatMap escapeChar) := by
  induction cs with
  | nil => exact .nil
  | cons c cs ih => exact (escaped_escapeChar c).isSealed.append ih

/-- Different texts have different literals, since a literal is read as its text. -/
theorem literal_injective : Function.Injective literal := by
  intro s t h
  have hs := readLiteral_literal s []
  rw [h, readLiteral_literal t []] at hs
  exact (Prod.mk.inj (Option.some.inj hs)).1.symm

/-- A literal stays within its line. -/
theorem newline_notMem_literal (s : String) : '\n' ∉ (literal s).toList := by
  rw [toList_literal]
  intro h
  cases isPrintableAscii_of_mem_literalChars h

end AgentFlow.Text
