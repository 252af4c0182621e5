import AgentFlow.Numeral.Binary64
import AgentFlow.Text.Blank

/-!
# Reading numbers

Three grammars. The strict decimal grammar of data formats is for integers; the free decimal
grammar, in which digits may be missing on one side of the point, is for doubles; and form fields
read both forgivingly, with white space around the number and underscores between its digits.
-/

namespace AgentFlow.Numeral

open AgentFlow.Text

def digitsValue (ds : List Char) : Nat := ds.foldl (fun n c => 10 * n + (c.toNat - 0x30)) 0

def readSign : List Char → Bool × List Char
  | '-' :: cs => (true, cs)
  | '+' :: cs => (false, cs)
  | cs => (false, cs)

/-- A decimal exponent that fills the rest of a number, or nothing. -/
def readExponent? : List Char → Option Int
  | [] => some 0
  | c :: cs =>
    if c == 'e' || c == 'E' then
      let (negative, ds) := readSign cs
      if ds.isEmpty || !ds.all Char.isDigit then none
      else
        let n : Int := digitsValue ds
        some (if negative then -n else n)
    else none

/-- Digits and exponent of an unsigned decimal: at least one digit, perhaps a point before, between
or after the digits, perhaps an exponent. -/
def readUnsigned? (cs : List Char) : Option (Nat × Int) :=
  let whole := cs.takeWhile Char.isDigit
  let rest := cs.dropWhile Char.isDigit
  let (fraction, rest) := match rest with
    | '.' :: more => (more.takeWhile Char.isDigit, more.dropWhile Char.isDigit)
    | _ => ([], rest)
  if whole.isEmpty && fraction.isEmpty then none
  else (readExponent? rest).map fun e => (digitsValue (whole ++ fraction), e - fraction.length)

/-- A double in the free decimal grammar, or a spelled-out infinity or missing number. -/
def readDouble? (cs : List Char) : Option Binary64 :=
  let (negative, rest) := readSign cs
  let spelled := String.ofList (rest.map Char.toLower)
  if spelled == "inf" || spelled == "infinity" then some (.infinite negative)
  else if spelled == "nan" then some .notANumber
  else (readUnsigned? rest).map fun (digits, e) => .ofScientific negative digits e

/-- Two underscores stand next to each other. -/
def hasDoubleUnderscore : List Char → Bool
  | '_' :: '_' :: _ => true
  | _ :: cs => hasDoubleUnderscore cs
  | [] => false

/-- The text without its underscores, if each of them stands alone between other characters. -/
def dropUnderscores? (cs : List Char) : Option (List Char) :=
  if cs.head? == some '_' || cs.getLast? == some '_' || hasDoubleUnderscore cs then none
  else some (cs.filter (· != '_'))

/-- A double as a form field holds it: with white space around it, or with underscores between its
characters, but not with both. -/
def readDoubleField? (s : String) : Option Binary64 :=
  match readDouble? (trimBy isWhiteSpace s.toList) with
  | some x => some x
  | none => do readDouble? (← dropUnderscores? s.toList)

/-- The number of digits from which on an integer is too large to be read. -/
def integerDigitLimit : Nat := 4300

/-- The outcome of reading an integer field. -/
inductive IntegerField where
  | value (i : Int)
  | tooLarge
  | malformed
  deriving DecidableEq, Repr

/-- An integer in the strict grammar: perhaps a minus sign, then digits without a leading zero. Too
many digits count before whatever follows them. -/
def readInteger (cs : List Char) : IntegerField :=
  let (negative, unsigned) := match cs with
    | '-' :: rest => (true, rest)
    | rest => (false, rest)
  let ds := unsigned.takeWhile Char.isDigit
  if ds.isEmpty || (ds.head? == some '0' && 1 < ds.length) then .malformed
  else if integerDigitLimit < ds.length then .tooLarge
  else if ds.length < unsigned.length then .malformed
  else
    let n : Int := digitsValue ds
    .value (if negative then -n else n)

/-- What follows the zeros at the start of a number, `last` being the character before; the zero
before a point stays. A minus sign may follow the zeros. -/
def dropZeros? (last : Char) : List Char → Option (List Char)
  | [] => some [last]
  | c :: cs =>
    if c == '0' || c == '_' then dropZeros? c cs
    else if ('1' ≤ c && c ≤ '9') || c == '-' then some (c :: cs)
    else if c == '.' then some (last :: c :: cs)
    else none

/-- An unsigned number without zeros at its start. -/
def dropLeadingZeros? : List Char → Option (List Char)
  | [] => none
  | c :: cs =>
    if c == '0' then dropZeros? c cs
    else if '1' ≤ c && c ≤ '9' then some (c :: cs)
    else none

/-- The number without its fraction, if the fraction holds nothing but zeros. -/
def dropZeroFraction (cs : List Char) : List Char :=
  match cs.dropWhile (· != '.') with
  | '.' :: zeros => if zeros.all (· == '0') then cs.takeWhile (· != '.') else cs
  | _ => cs

/-- The strict form of a forgivingly written integer. -/
def tidyInteger? (cs : List Char) : Option (List Char) := do
  let (sign, unsigned) ← match cs with
    | '+' :: '-' :: _ => none
    | '+' :: rest => some ([], rest)
    | '-' :: rest => some (['-'], rest)
    | rest => some ([], rest)
  let digits ← dropUnderscores? (dropZeroFraction (← dropLeadingZeros? unsigned))
  return sign ++ digits

def readIntegerField (s : String) : IntegerField :=
  let cs := trimBy isWhiteSpace s.toList
  match readInteger cs with
  -- a number that is too large is not tried again
  | .malformed =>
    match tidyInteger? cs with
    | some tidy => readInteger tidy
    | none => .malformed
  | outcome => outcome

end AgentFlow.Numeral
