import AgentFlow.Proofs.Skeleton.Readings

/-!
# What literals denote in TypeScript

All targets write the same literals. A string of TypeScript is a sequence of UTF-16 units, of which
two halves of a surrogate pair make up one character, also if each of them is written as an escape
of its own. The reader here knows all that may stand between double quotes: characters, the escapes
of one letter, of two or four digits and of a code point in braces, the escaped zero, and escaped
line ends, which denote nothing. It reads every literal back (`readString_literal`), so a program
builds the graph of its plan (`read_program_readString`).
-/

namespace AgentFlow.Skeleton.TypeScript

open Text Json

/-! ## Texts as units -/

/-- The UTF-16 units of a code point. -/
def pointUnits (n : Nat) : List Nat :=
  if n < 0x10000 then [n] else [0xd800 + (n - 0x10000) / 0x400, 0xdc00 + (n - 0x10000) % 0x400]

/-- The characters that units make up, if no half of a surrogate pair stands alone. -/
def joinUnits : List Nat → Option (List Char)
  | [] => some []
  | unit :: units =>
    if isHighHalf unit then
      match units with
      | [] => none
      | low :: units =>
        if isLowHalf low then (joinUnits units).map (joinHalves unit low :: ·) else none
    else if isLowHalf unit then none
    else (joinUnits units).map (Char.ofNat unit :: ·)

theorem pointUnits_of_lt {n : Nat} (h : n < 0x10000) : pointUnits n = [n] := if_pos h

theorem pointUnits_of_le {n : Nat} (h : 0x10000 ≤ n) :
    pointUnits n = [0xd800 + (n - 0x10000) / 0x400, 0xdc00 + (n - 0x10000) % 0x400] :=
  if_neg (Nat.not_lt.2 h)

/-- A unit that is no half is a character. -/
theorem joinUnits_cons {unit : Nat} (units : List Nat) (hhigh : isHighHalf unit = false)
    (hlow : isLowHalf unit = false) :
    joinUnits (unit :: units) = (joinUnits units).map (Char.ofNat unit :: ·) := by
  cases units <;> simp [joinUnits, hhigh, hlow]

/-- Two halves are one character. -/
theorem joinUnits_pair {high low : Nat} (units : List Nat) (hhigh : isHighHalf high = true)
    (hlow : isLowHalf low = true) :
    joinUnits (high :: low :: units) = (joinUnits units).map (joinHalves high low :: ·) := by
  simp [joinUnits, hhigh, hlow]

/-- The units of a character make it up again. -/
theorem joinUnits_pointUnits_append (c : Char) (units : List Nat) :
    joinUnits (pointUnits c.toNat ++ units) = (joinUnits units).map (c :: ·) := by
  by_cases h : c.toNat < 0x10000
  · rw [pointUnits_of_lt h, List.singleton_append,
      joinUnits_cons units (isHighHalf_toNat c) (isLowHalf_toNat c), Char.ofNat_toNat]
  · -- beyond the basic plane there are two halves, and they are joined
    have hle := Nat.le_of_not_lt h
    rw [pointUnits_of_le hle, List.cons_append, List.singleton_append,
      joinUnits_pair units (isHighHalf_high hle) (isLowHalf_low c.toNat), joinHalves_halves hle]

/-- The units of a text make it up again. -/
theorem joinUnits_flatMap_pointUnits (cs : List Char) :
    joinUnits (cs.flatMap fun c => pointUnits c.toNat) = some cs := by
  induction cs with
  | nil => rfl
  | cons c cs ih =>
    rw [List.flatMap_cons, joinUnits_pointUnits_append, ih]
    rfl

/-! ## The reader -/

/-- Where the reader stands in a literal: between characters, behind a backslash, behind an escaped
zero, behind an escaped carriage return, behind the letter of a unit, or among the digits of a unit
or of a code point. -/
inductive LiteralMode where
  | text
  | escape
  | zero
  | lineEnd
  | unit
  | digits (missing value : Nat)
  | point (value : Option Nat)

/-- What a character does in a literal: it must not stand there, it closes the literal, or it adds
units and leads on. -/
inductive LiteralStep where
  | refused
  | closed
  | added (units : List Nat) (mode : LiteralMode)

/-- A line end must not stand in a literal by itself. -/
def textStep (c : Char) : LiteralStep :=
  if c = '\x22' then .closed
  else if c = '\x5c' then .added [] .escape
  else if c = '\n' ∨ c = '\r' then .refused
  else .added (pointUnits c.toNat) .text

/-- The character that a letter behind a backslash denotes; most denote themselves. -/
def unescaped : Char → Char
  | 'b' => '\x08'
  | 'f' => '\x0c'
  | 'n' => '\n'
  | 'r' => '\r'
  | 't' => '\t'
  | 'v' => '\x0b'
  | c => c

/-- Octal escapes are refused, as in every module. -/
def escapeStep (c : Char) : LiteralStep :=
  if c = 'u' then .added [] .unit
  else if c = 'x' then .added [] (.digits 2 0)
  else if c = '0' then .added [0] .zero
  else if c.isDigit then .refused
  else if c = '\r' then .added [] .lineEnd
  else if c ∈ ['\n', '\u2028', '\u2029'] then .added [] .text
  else .added (pointUnits (unescaped c).toNat) .text

/-- One of the digits of a unit, of which some are missing. -/
def digitStep (missing value : Nat) (c : Char) : LiteralStep :=
  match hexValue? c with
  | none => .refused
  | some digit =>
    if missing ≤ 1 then .added [16 * value + digit] .text
    else .added [] (.digits (missing - 1) (16 * value + digit))

/-- One of the digits of a code point, or the brace behind them. -/
def pointStep (value : Option Nat) (c : Char) : LiteralStep :=
  if c = '\x7d' then
    match value with
    | none => .refused
    | some n => if n ≤ 0x10ffff then .added (pointUnits n) .text else .refused
  else
    match hexValue? c with
    | none => .refused
    | some digit => .added [] (.point (some (16 * value.getD 0 + digit)))

/-- What one character does. -/
def LiteralMode.step : LiteralMode → Char → LiteralStep
  | .text, c => textStep c
  | .escape, c => escapeStep c
  | .zero, c => if c.isDigit then .refused else textStep c
  | .lineEnd, c => if c = '\n' then .added [] .text else textStep c
  | .unit, c => if c = '\x7b' then .added [] (.point none) else digitStep 4 0 c
  | .digits missing value, c => digitStep missing value c
  | .point value, c => pointStep value c

/-- The units of a literal of which some have been seen, and what follows the literal. -/
def readUnits (mode : LiteralMode) (seen : List Nat) : List Char → Option (List Nat × List Char)
  | [] => none
  | c :: cs =>
    match mode.step c with
    | .refused => none
    | .closed => some (seen, cs)
    | .added units mode => readUnits mode (seen ++ units) cs

/-- The text of a literal, and what follows the literal. -/
def readString : Decoder String
  | '\x22' :: cs => (readUnits .text [] cs).bind fun found =>
    (joinUnits found.1).map fun chars => (String.ofList chars, found.2)
  | _ => none

variable {mode mode' : LiteralMode} {seen units : List Nat} {c : Char} {cs rest : List Char}

theorem readUnits_of_step (h : mode.step c = .added units mode') :
    readUnits mode seen (c :: cs) = readUnits mode' (seen ++ units) cs := by
  rw [readUnits, h]

/-- A step without units only changes the mode. -/
theorem readUnits_of_silent_step (h : mode.step c = .added [] mode') :
    readUnits mode seen (c :: cs) = readUnits mode' seen cs := by
  rw [readUnits_of_step h, List.append_nil]

/-! ## Units -/

/-- A digit that is not the last one. -/
theorem digitStep_hexDigit {missing value n : Nat} (h : 1 < missing) :
    digitStep missing value (hexDigit n) =
      .added [] (.digits (missing - 1) (16 * value + n % 16)) := by
  rw [digitStep, hexValue?_hexDigit]
  exact if_neg (Nat.not_le.2 h)

/-- The first digit, which is no opening brace. -/
theorem readUnits_unit (n : Nat) : readUnits .unit seen (hexDigit n :: cs) =
    readUnits (.digits 3 (16 * 0 + n % 16)) seen cs := by
  have hbrace : hexDigit n ≠ '\x7b' := hexDigit_ne rfl n
  exact readUnits_of_silent_step ((if_neg hbrace).trans (digitStep_hexDigit (by decide)))

theorem readUnits_digits {missing value n : Nat} (h : 1 < missing) :
    readUnits (.digits missing value) seen (hexDigit n :: cs) =
      readUnits (.digits (missing - 1) (16 * value + n % 16)) seen cs :=
  readUnits_of_silent_step (digitStep_hexDigit h)

theorem readUnits_digits_last {value n : Nat} :
    readUnits (.digits 1 value) seen (hexDigit n :: cs) =
      readUnits .text (seen ++ [16 * value + n % 16]) cs := by
  refine readUnits_of_step ?_
  rw [LiteralMode.step, digitStep, hexValue?_hexDigit]
  rfl

/-- Four digits are read as one unit, whatever stands behind them. -/
theorem readUnits_escapeUnit {unit : Nat} (h : unit < 0x10000) :
    readUnits .text seen (escapeUnit unit ++ rest) = readUnits .text (seen ++ [unit]) rest := by
  have hescape : readUnits .text seen (escapeUnit unit ++ rest) =
      readUnits .unit seen (hexDigits 4 unit ++ rest) := by
    have hbackslash : LiteralMode.text.step '\x5c' = .added [] .escape := rfl
    have hletter : LiteralMode.escape.step 'u' = .added [] .unit := rfl
    rw [escapeUnit, List.cons_append, List.cons_append, readUnits_of_silent_step hbackslash,
      readUnits_of_silent_step hletter]
  rw [hescape]
  simp only [hexDigits, List.nil_append, List.cons_append]
  rw [readUnits_unit, readUnits_digits (by decide), readUnits_digits (by decide),
    readUnits_digits_last, fourDigits_eq h]

/-! ## Characters -/

/-- Printable characters but the quote and the backslash stand for themselves. -/
theorem textStep_of_isPrintableAscii (hquote : c ≠ '\x22') (hbackslash : c ≠ '\x5c')
    (hprintable : isPrintableAscii c = true) :
    textStep c = .added (pointUnits c.toNat) .text := by
  have hline : ¬ (c = '\n' ∨ c = '\r') := by
    rintro (rfl | rfl) <;> cases hprintable
  rw [textStep, if_neg hquote, if_neg hbackslash, if_neg hline]

/-- TypeScript has the one-letter escapes of JSON. -/
theorem escapeStep_of_json {e : Char} (h : Json.shortEscape? e = some c) :
    escapeStep e = .added (pointUnits c.toNat) .text := by
  have hmem := mem_of_shortEscape? h
  simp only [List.mem_cons, List.not_mem_nil, or_false] at hmem
  rcases hmem with rfl | rfl | rfl | rfl | rfl | rfl | rfl | rfl
  all_goals
    obtain rfl := Option.some.inj h
    rfl

/-- Whatever its escape is, a character is read as its units. -/
theorem readUnits_escapeChar (c : Char) (seen : List Nat) (rest : List Char) :
    readUnits .text seen (escapeChar c ++ rest) =
      readUnits .text (seen ++ pointUnits c.toNat) rest := by
  have h := escaped_escapeChar c
  generalize escapeChar c = es at h ⊢
  cases h with
  | itself hquote hbackslash hprintable =>
    exact readUnits_of_step (textStep_of_isPrintableAscii hquote hbackslash hprintable)
  | short _ _ hshort =>
    have hbackslash : LiteralMode.text.step '\x5c' = .added [] .escape := rfl
    rw [List.cons_append, readUnits_of_silent_step hbackslash]
    exact readUnits_of_step (escapeStep_of_json hshort)
  | unit h => rw [readUnits_escapeUnit h, pointUnits_of_lt h]
  | halves h =>
    -- both halves fit into four digits
    have hvalid := toNat_lt_or_lt c
    rw [List.append_assoc, readUnits_escapeUnit (by omega), readUnits_escapeUnit (by omega),
      pointUnits_of_le h, List.append_assoc]
    rfl

/-! ## Literals -/

/-- The reader gets to the closing quote with all units of the text. -/
theorem readUnits_flatMap_escapeChar (cs : List Char) (seen : List Nat) (rest : List Char) :
    readUnits .text seen (cs.flatMap escapeChar ++ '\x22' :: rest) =
      some (seen ++ cs.flatMap fun c => pointUnits c.toNat, rest) := by
  induction cs generalizing seen with
  | nil =>
    rw [List.flatMap_nil, List.flatMap_nil, List.append_nil]
    rfl
  | cons c cs ih =>
    rw [List.flatMap_cons, List.append_assoc, readUnits_escapeChar, ih, List.flatMap_cons,
      List.append_assoc]

/-- **A literal denotes its text**, whatever stands behind it. -/
theorem readString_literal : Decodes readString id := by
  intro s rest
  have h := readUnits_flatMap_escapeChar s.toList [] rest
  rw [List.nil_append] at h
  rw [toList_literal]
  simp only [literalChars, List.cons_append, List.append_assoc, List.nil_append]
  rw [readString, h, Option.bind_some, joinUnits_flatMap_pointUnits, Option.map_some,
    String.ofList_toList]
  rfl

/-- A text between quotes, in printable ASCII, that JSON and TypeScript read alike. -/
structure IsExactLiteral (cs : List Char) (s : String) : Prop where
  printable : ∀ c ∈ cs, isPrintableAscii c = true
  quoted : ∃ body, cs = '\x22' :: body ++ ['\x22'] ∧ IsSealed body
  json : ∀ rest, readLiteral (cs ++ rest) = some (s, rest)
  typeScript : ∀ rest, readString (cs ++ rest) = some (s, rest)

/-- **Literals are exact**: each is made of printable ASCII characters, has no quote between its
quotes that is not escaped, and is read as its text, whatever stands behind it. So different texts
have different literals. -/
theorem literal_isExact :
    (∀ s, IsExactLiteral (literal s).toList s) ∧ Function.Injective literal := by
  refine ⟨fun s => ?_, literal_injective⟩
  have hchars := toList_literal s
  exact {
    printable := fun c hc => isPrintableAscii_of_mem_literalChars (hchars ▸ hc)
    quoted := ⟨s.toList.flatMap escapeChar, hchars, isSealed_flatMap_escapeChar s.toList⟩
    json := readLiteral_literal s
    typeScript := readString_literal s }

/-- The two halves of a pair are joined, and a digit behind an escape does not belong to it. -/
example : readString (literal "😀\x00" ++ "1").toList = some ("😀\x00", ['1']) := by decide +kernel

/-! ## Programs -/

/-- **A TypeScript program builds the graph of its plan.** -/
theorem read_program_readString {nodes : List Node} {edges : List Edge} {entryId : Option String}
    {p : Plan} (h : plan nodes edges entryId = .ok p) (project : Option String) :
    Target.typescript.read readString (p.program .typescript project) = some p.wiring := by
  have hread := Target.read_program readString_literal h project .typescript
  rwa [Wiring.map_id] at hread

end AgentFlow.Skeleton.TypeScript
