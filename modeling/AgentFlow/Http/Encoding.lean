import AgentFlow.Json.Token
import AgentFlow.Text.Literal

/-!
# The encoding of JSON bodies

JSON starts with an ASCII character, so the zero bytes among the first bytes of a body tell in which
encoding of Unicode it is written.
-/

namespace AgentFlow.Http

inductive Encoding where
  | utf8
  | utf16 (bigEndian : Bool)
  | utf32 (bigEndian : Bool)
  deriving DecidableEq, Repr

/-- The encoding that the first bytes tell. -/
def Encoding.detect : List UInt8 → Encoding
  | [a, b] => if a = 0 then .utf16 true else if b = 0 then .utf16 false else .utf8
  | a :: b :: c :: d :: _ =>
    -- a zero byte in front: the greater half comes first
    if a = 0 then if b = 0 then .utf32 true else .utf16 true
    else if b = 0 then if c = 0 && d = 0 then .utf32 false else .utf16 false
    else .utf8
  | _ => .utf8

/-- The code units of two bytes each, if no byte is left over. -/
def units16? (bigEndian : Bool) : List UInt8 → Option (List Nat)
  | [] => some []
  | [_] => none
  | a :: b :: rest =>
    let unit := if bigEndian then a.toNat * 0x100 + b.toNat else b.toNat * 0x100 + a.toNat
    (units16? bigEndian rest).map (unit :: ·)

/-- The code units of four bytes each, if no byte is left over. -/
def units32? (bigEndian : Bool) (bytes : List UInt8) : Option (List Nat) :=
  match units16? bigEndian bytes with
  | none => none
  | some halves => join halves
where
  /-- Two halves make a unit. -/
  join : List Nat → Option (List Nat)
    | [] => some []
    | [_] => none
    | a :: b :: rest =>
      let unit := if bigEndian then a * 0x10000 + b else b * 0x10000 + a
      (join rest).map (unit :: ·)

def isHalf (unit : Nat) : Bool := Json.isHighHalf unit || Json.isLowHalf unit

/-- A code unit as JSON text: half of a surrogate pair, which is no character, is spelled as its
escape. -/
def spellUnit (unit : Nat) : List Char :=
  if isHalf unit then Text.escapeUnit unit else [Char.ofNat unit]

def spellUnits16 : List Nat → List Char
  | [] => []
  | [unit] => spellUnit unit
  | unit :: next :: rest =>
    if Json.isHighHalf unit && Json.isLowHalf next then
      Json.joinHalves unit next :: spellUnits16 rest
    else spellUnit unit ++ spellUnits16 (next :: rest)

/-- The characters of code units of four bytes, if none lies beyond the last code point. -/
def spellUnits32? (units : List Nat) : Option (List Char) :=
  if units.all (· < 0x110000) then some (units.flatMap spellUnit) else none

/-- The text that an encoding reads out of the UTF-8 bytes of a text. -/
def Encoding.decode? (s : String) (bytes : List UInt8) : Encoding → Option String
  | .utf8 => some s
  | .utf16 bigEndian => do
    return String.ofList (spellUnits16 (← units16? bigEndian bytes))
  | .utf32 bigEndian => do
    return String.ofList (← spellUnits32? (← units32? bigEndian bytes))

/-- The text without the mark of the byte order. -/
def withoutMark (s : String) : String :=
  match s.toList with
  | c :: rest => if c.toNat == 0xfeff then String.ofList rest else s
  | [] => s

/-- What a body means as JSON text, if its bytes are text at all. -/
def jsonText? (s : String) : Option String :=
  let bytes := s.toUTF8.toList
  Encoding.decode? (withoutMark s) bytes (.detect bytes)

end AgentFlow.Http
