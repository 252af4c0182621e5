/-!
# UTF-8 with gaps

Bytes as characters. Bytes that are no UTF-8 become replacement characters: one for every longest
start of a character that breaks off, and one for every byte that starts none.
-/

namespace AgentFlow.Text

def replacement : Char := '\uFFFD'

/-- A character that has begun: its value so far, the number of bytes that are missing, and the
range of the next one. -/
structure Begun where
  value : Nat
  missing : Nat
  least : Nat := 0x80
  greatest : Nat := 0xbf

/-- The characters that a byte completes, and the character that it leaves begun. -/
abbrev Utf8Step := List Char × Option Begun

/-- What a byte does at the start of a character. The ranges of the second byte leave out longer
spellings than needed, surrogates, and what lies beyond the last code point. -/
def beginUtf8 (b : Nat) : Utf8Step :=
  if b < 0x80 then ([Char.ofNat b], none)
  else if 0xc2 ≤ b && b ≤ 0xdf then ([], some { value := b - 0xc0, missing := 1 })
  else if b == 0xe0 then ([], some { value := 0, missing := 2, least := 0xa0 })
  else if b == 0xed then ([], some { value := 0xd, missing := 2, greatest := 0x9f })
  else if 0xe1 ≤ b && b ≤ 0xef then ([], some { value := b - 0xe0, missing := 2 })
  else if b == 0xf0 then ([], some { value := 0, missing := 3, least := 0x90 })
  else if 0xf1 ≤ b && b ≤ 0xf3 then ([], some { value := b - 0xf0, missing := 3 })
  else if b == 0xf4 then ([], some { value := 4, missing := 3, greatest := 0x8f })
  else ([replacement], none)

def stepUtf8 (begun : Option Begun) (b : Nat) : Utf8Step :=
  match begun with
  | none => beginUtf8 b
  | some start =>
    if start.least ≤ b && b ≤ start.greatest then
      let value := start.value * 0x40 + (b - 0x80)
      if start.missing ≤ 1 then ([Char.ofNat value], none)
      else ([], some { value := value, missing := start.missing - 1 })
    else
      -- the byte that breaks a character off may start another one
      let (cs, next) := beginUtf8 b
      (replacement :: cs, next)

def decodeFrom (begun : Option Begun) : List UInt8 → List Char
  | [] => if begun.isSome then [replacement] else []
  | b :: bs =>
    let (cs, next) := stepUtf8 begun b.toNat
    cs ++ decodeFrom next bs

def decodeUtf8 (bytes : List UInt8) : List Char := decodeFrom none bytes

end AgentFlow.Text
