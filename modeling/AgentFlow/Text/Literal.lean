/-!
# Quoted literals in ASCII

A double-quoted literal that several languages read alike: printable ASCII characters stand for
themselves, the quote and the backslash are escaped, and every other character is a short escape or
its UTF-16 units in four lower-case hexadecimal digits each.
-/

namespace AgentFlow.Text

/-- The lower-case hexadecimal digit of `n % 16`. -/
def hexDigit (n : Nat) : Char :=
  let d := n % 16
  if d < 10 then Char.ofNat (0x30 + d) else Char.ofNat (0x57 + d)

/-- The last `width` hexadecimal digits of `n`. -/
def hexDigits : (width n : Nat) → List Char
  | 0, _ => []
  | width + 1, n => hexDigits width (n / 16) ++ [hexDigit n]

def escapeUnit (n : Nat) : List Char := '\x5c' :: 'u' :: hexDigits 4 n

/-- A character as it stands in a literal. -/
def escapeChar (c : Char) : List Char :=
  let n := c.toNat
  if n == 0x22 then ['\x5c', '\x22']
  else if n == 0x5c then ['\x5c', '\x5c']
  else if 0x20 ≤ n && n ≤ 0x7e then [c]
  else if n == 0x0a then ['\x5c', 'n']
  else if n == 0x0d then ['\x5c', 'r']
  else if n == 0x09 then ['\x5c', 't']
  else if n == 0x08 then ['\x5c', 'b']
  else if n == 0x0c then ['\x5c', 'f']
  else if n < 0x10000 then escapeUnit n
  else escapeUnit (0xd800 + (n - 0x10000) / 0x400) ++ escapeUnit (0xdc00 + (n - 0x10000) % 0x400)

def literalChars (cs : List Char) : List Char := '\x22' :: cs.flatMap escapeChar ++ ['\x22']

def literal (s : String) : String := String.ofList (literalChars s.toList)

end AgentFlow.Text
