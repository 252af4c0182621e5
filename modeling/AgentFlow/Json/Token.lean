import AgentFlow.Json.Basic
import AgentFlow.Numeral.Reading

/-!
# The tokens of JSON text

The scanner reads a text character by character: `Mode.step` says which tokens one character
completes and in which mode the scanner goes on, if it can. Words that are not in quotes become
tokens as they stand, since they are read only where a value may come. Numbers follow the strict
grammar of JSON; besides them the words `NaN`, `Infinity` and `-Infinity` are numbers. Half of a
surrogate pair without the other half tears the text that it stands in.
-/

namespace AgentFlow.Json

open Numeral

/-- A token of JSON text; a text may be torn. -/
inductive Token where
  | openArray
  | closeArray
  | openObject
  | closeObject
  | comma
  | colon
  | text (s : String) (isTorn : Bool)
  | word (cs : List Char)

/-- What a reader of JSON text puts up with. -/
structure Limits where
  /-- The greatest number of containers that are open at once and not empty. -/
  depth : Option Nat := none
  /-- The greatest number of digits of a whole number. -/
  digits : Option Nat := none
  /-- The greatest number of digits before the point or the exponent of any other number. -/
  wholeDigits : Option Nat := none
  /-- Texts may be torn. -/
  tornTexts : Bool := false

def Limits.unlimited : Limits := {}

/-- `n` stays within a limit, if there is one. -/
def within (limit : Option Nat) (n : Nat) : Bool :=
  match limit with
  | some most => n ≤ most
  | none => true

/-- Why a text is not read: it is no JSON, or it goes beyond a limit. -/
inductive ReadError where
  | malformed
  | tooLarge
  deriving DecidableEq, Repr

/-! ### Words -/

def takeDigits (cs : List Char) : List Char × List Char :=
  (cs.takeWhile Char.isDigit, cs.dropWhile Char.isDigit)

/-- The whole part of a number, which has no leading zero, and what follows it. -/
def takeWhole : List Char → List Char × List Char
  | '0' :: cs => (['0'], cs)
  | cs => takeDigits cs

/-- The digits after the point of a number, if it has a point, and what follows them. -/
def takeFraction : List Char → List Char × List Char
  | '.' :: cs =>
    match takeDigits cs with
    -- a point without digits belongs to what follows
    | ([], _) => ([], '.' :: cs)
    | found => found
  | cs => ([], cs)

/-- The exponent of a number, if it has one, and what follows it. -/
def takeExponent : List Char → Option Int × List Char
  | [] => (none, [])
  | c :: cs =>
    if c == 'e' || c == 'E' then
      let (negative, unsigned) := readSign cs
      match takeDigits unsigned with
      -- likewise an exponent without digits
      | ([], _) => (none, c :: cs)
      | (ds, rest) =>
        let n : Int := digitsValue ds
        (some (if negative then -n else n), rest)
    else (none, c :: cs)

/-- A number in the strict grammar. It is a whole number unless it has a fraction or an exponent.
Too many digits count before what follows the number. -/
def readNumber (limits : Limits) (cs : List Char) : Except ReadError Json :=
  let (negative, unsigned) := match cs with
    | '-' :: rest => (true, rest)
    | _ => (false, cs)
  let (whole, rest) := takeWhole unsigned
  let (fraction, rest) := takeFraction rest
  let (exponent, rest) := takeExponent rest
  let isWhole := fraction.isEmpty && exponent.isNone
  if whole.isEmpty then .error .malformed
  else if !within (if isWhole then limits.digits else limits.wholeDigits) whole.length then
    .error .tooLarge
  else if !rest.isEmpty then .error .malformed
  else if isWhole then
    let n : Int := digitsValue whole
    .ok (.int (if negative then -n else n))
  else
    .ok (.float (.ofScientific negative (digitsValue (whole ++ fraction))
      (exponent.getD 0 - fraction.length)))

/-- The value of a word that is not in quotes. -/
def readWord (limits : Limits) (cs : List Char) : Except ReadError Json :=
  match String.ofList cs with
  | "null" => .ok .null
  | "true" => .ok (.bool true)
  | "false" => .ok (.bool false)
  | "NaN" => .ok (.float .notANumber)
  | "Infinity" => .ok (.float (.infinite false))
  | "-Infinity" => .ok (.float (.infinite true))
  | _ => readNumber limits cs

/-! ### Texts -/

/-- What was seen of a text: its characters, in reverse, and whether a lone half was left out. -/
structure Seen where
  chars : List Char := []
  isTorn : Bool := false

def Seen.push (seen : Seen) (c : Char) : Seen := { seen with chars := c :: seen.chars }

/-- A lone half was seen. -/
def Seen.tear? (limits : Limits) (seen : Seen) : Option Seen :=
  if limits.tornTexts then some { seen with isTorn := true } else none

def Seen.token (seen : Seen) : Token := .text (String.ofList seen.chars.reverse) seen.isTorn

/-- The scanner's mode. The characters seen so far of a word are kept in reverse; `high` is the
first half of a surrogate pair. -/
inductive Mode where
  | between
  | word (seen : List Char)
  | text (seen : Seen)
  | escape (seen : Seen)
  | code (seen : Seen) (high : Option Nat) (missing value : Nat)
  | pair (seen : Seen) (high : Nat)
  | pairEscape (seen : Seen) (high : Nat)

/-- The blanks of JSON. -/
def isGap (c : Char) : Bool := c == ' ' || c == '\t' || c == '\n' || c == '\r'

def isWordPart (c : Char) : Bool := c.isAlphanum || c == '-' || c == '+' || c == '.'

/-- The token of a single punctuation character. -/
def punctuation? (c : Char) : Option Token :=
  if c == '[' then some .openArray
  else if c == ']' then some .closeArray
  else if c == '\x7b' then some .openObject
  else if c == '\x7d' then some .closeObject
  else if c == ',' then some .comma
  else if c == ':' then some .colon
  else none

/-- The tokens that a character completes, and the mode in which the scanner goes on; there is none
if the text is no JSON from here on. -/
abbrev Step := List Token × Option Mode

def startToken (c : Char) : Step :=
  if isGap c then ([], some .between)
  else if c == '\x22' then ([], some (.text {}))
  else if isWordPart c then ([], some (.word [c]))
  else match punctuation? c with
    | some t => ([t], some .between)
    | none => ([], none)

/-- The character that a one-letter escape stands for. -/
def shortEscape? (c : Char) : Option Char :=
  if c == '\x22' || c == '\x5c' || c == '/' then some c
  else if c == 'b' then some '\x08'
  else if c == 'f' then some '\x0c'
  else if c == 'n' then some '\n'
  else if c == 'r' then some '\r'
  else if c == 't' then some '\t'
  else none

def hexValue? (c : Char) : Option Nat :=
  if '0' ≤ c && c ≤ '9' then some (c.toNat - 0x30)
  else if 'a' ≤ c && c ≤ 'f' then some (c.toNat - 0x57)
  else if 'A' ≤ c && c ≤ 'F' then some (c.toNat - 0x37)
  else none

/-- A code unit is the first half of a surrogate pair. -/
def isHighHalf (unit : Nat) : Bool := 0xd800 ≤ unit && unit < 0xdc00

/-- A code unit is the second half of a surrogate pair. -/
def isLowHalf (unit : Nat) : Bool := 0xdc00 ≤ unit && unit < 0xe000

/-- The character that both halves of a surrogate pair stand for. -/
def joinHalves (high low : Nat) : Char :=
  Char.ofNat (0x10000 + (high - 0xd800) * 0x400 + (low - 0xdc00))

/-- What a complete code unit does that follows no first half. -/
def endUnit? (limits : Limits) (seen : Seen) (unit : Nat) : Option Mode :=
  if isHighHalf unit then some (.pair seen unit)
  else if isLowHalf unit then (seen.tear? limits).map .text
  else some (.text (seen.push (Char.ofNat unit)))

/-- What a complete code unit does, perhaps after a first half. -/
def endCode? (limits : Limits) (seen : Seen) (high : Option Nat) (unit : Nat) : Option Mode :=
  match high with
  | none => endUnit? limits seen unit
  | some first =>
    if isLowHalf unit then some (.text (seen.push (joinHalves first unit)))
    -- the first half stays alone, and this unit starts anew
    else (seen.tear? limits).bind fun seen => endUnit? limits seen unit

def textStep (seen : Seen) (c : Char) : Step :=
  if c == '\x22' then ([seen.token], some .between)
  else if c == '\x5c' then ([], some (.escape seen))
  else if c.toNat < 0x20 then ([], none)
  else ([], some (.text (seen.push c)))

def escapeStep (seen : Seen) (c : Char) : Step :=
  if c == 'u' then ([], some (.code seen none 4 0))
  else ([], (shortEscape? c).map fun e => .text (seen.push e))

def Mode.step (limits : Limits) : Mode → Char → Step
  | .between, c => startToken c
  | .word seen, c =>
    if isWordPart c then ([], some (.word (c :: seen)))
    else
      let (more, mode) := startToken c
      (.word seen.reverse :: more, mode)
  | .text seen, c => textStep seen c
  | .escape seen, c => escapeStep seen c
  | .code seen high missing value, c =>
    match hexValue? c with
    | none => ([], none)
    | some digit =>
      let value := 16 * value + digit
      if missing ≤ 1 then ([], endCode? limits seen high value)
      else ([], some (.code seen high (missing - 1) value))
  -- behind a first half only another escape can hold the second one
  | .pair seen high, c =>
    if c == '\x5c' then ([], some (.pairEscape seen high))
    else match seen.tear? limits with
      | some seen => textStep seen c
      | none => ([], none)
  | .pairEscape seen high, c =>
    if c == 'u' then ([], some (.code seen (some high) 4 0))
    else match seen.tear? limits with
      | some seen => escapeStep seen c
      | none => ([], none)

/-- The token that the end of the text completes, if the text may end here. -/
def Mode.finish? : Mode → Option (List Token)
  | .between => some []
  | .word seen => some [.word seen.reverse]
  | _ => none

end AgentFlow.Json
