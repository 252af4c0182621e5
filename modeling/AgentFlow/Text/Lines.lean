/-!
# Lines

A text splits into lines at every line end. A line end closes the line before it, so a text that
finishes with one has no empty line after it. A carriage return directly before a line feed is one
line end with it.
-/

namespace AgentFlow.Text

/-- The characters that end a line: line feed, vertical tab, form feed, carriage return, the file,
group and record separators, next line, and the line and paragraph separators. -/
def isLineEnd (c : Char) : Bool :=
  let n := c.toNat
  (0x0a ≤ n && n ≤ 0x0d) || (0x1c ≤ n && n ≤ 0x1e) || n == 0x85 || n == 0x2028 || n == 0x2029

def splitLines : List Char → List (List Char)
  | [] => []
  | '\r' :: '\n' :: cs => [] :: splitLines cs
  | c :: cs =>
    if isLineEnd c then [] :: splitLines cs
    else match splitLines cs with
      | [] => [[c]]
      | line :: more => (c :: line) :: more

def lines (s : String) : List String := (splitLines s.toList).map String.ofList

/-- The text without one line feed at its end. -/
def dropFinalLineFeed (cs : List Char) : List Char :=
  if cs.getLast? = some '\n' then cs.dropLast else cs

end AgentFlow.Text
