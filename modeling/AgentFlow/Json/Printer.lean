import AgentFlow.Json.Basic
import AgentFlow.Numeral.Text
import AgentFlow.Text.Literal

/-!
# Printing JSON

A value on one line in ASCII, and a value on indented lines with either kind of literal: ASCII, or
with the characters beyond ASCII as they are. A double without a JSON spelling is printed as null.
-/

namespace AgentFlow.Json

open Text

/-- A character in a literal that keeps what is beyond ASCII. -/
def openEscapeChar (c : Char) : List Char := if c.toNat < 0x7f then escapeChar c else [c]

def openLiteral (s : String) : String :=
  String.ofList ('\x22' :: s.toList.flatMap openEscapeChar ++ ['\x22'])

/-- A double as JSON, null if it is not finite. -/
def floatText (x : Numeral.Binary64) : String := if x.isFinite then x.text else "null"

mutual

/-- A value on one line, in ASCII. -/
def compact : Json → String
  | .null => "null"
  | .bool true => "true"
  | .bool false => "false"
  | .int i => i.repr
  | .float x => floatText x
  | .str s => literal s
  | .arr items => "[" ++ ", ".intercalate (compactItems items) ++ "]"
  | .obj fields => "\x7b" ++ ", ".intercalate (compactFields fields) ++ "\x7d"
  | .torn v => v.compact

def compactItems : List Json → List String
  | [] => []
  | v :: rest => v.compact :: compactItems rest

def compactFields : List (String × Json) → List String
  | [] => []
  | (name, v) :: rest => (literal name ++ ": " ++ v.compact) :: compactFields rest

end

def indentation (depth : Nat) : String := String.ofList (List.replicate (2 * depth) ' ')

/-- The parts of a container on lines of their own between its brackets. -/
def block (opening closing : String) (depth : Nat) (parts : List String) : String :=
  if parts.isEmpty then opening ++ closing
  else
    let gap := "\n" ++ indentation (depth + 1)
    opening ++ gap ++ ("," ++ gap).intercalate parts ++ "\n" ++ indentation depth ++ closing

mutual

/-- A value on indented lines; `quote` makes the literals. -/
def indented (quote : String → String) (depth : Nat) : Json → String
  | .null => "null"
  | .bool true => "true"
  | .bool false => "false"
  | .int i => i.repr
  | .float x => floatText x
  | .str s => quote s
  | .arr items => block "[" "]" depth (indentedItems quote (depth + 1) items)
  | .obj fields => block "\x7b" "\x7d" depth (indentedFields quote (depth + 1) fields)
  | .torn v => v.indented quote depth

def indentedItems (quote : String → String) (depth : Nat) : List Json → List String
  | [] => []
  | v :: rest => v.indented quote depth :: indentedItems quote depth rest

def indentedFields (quote : String → String) (depth : Nat) : List (String × Json) → List String
  | [] => []
  | (name, v) :: rest =>
    (quote name ++ ": " ++ v.indented quote depth) :: indentedFields quote depth rest

end

end AgentFlow.Json
