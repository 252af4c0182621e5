import AgentFlow.Text.Runs

/-!
# Blank characters

The blank characters are the white space of Unicode together with the four information separators
U+001C to U+001F. Trimming removes them at the ends of a text, and folding turns a text into one
line by putting a single space between its blank-free runs.
-/

namespace AgentFlow.Text

/-- White space as Unicode has it. -/
def isWhiteSpace (c : Char) : Bool :=
  let n := c.toNat
  (0x09 ≤ n && n ≤ 0x0d) || n == 0x20 || n == 0x85 || n == 0xa0 || n == 0x1680 ||
  (0x2000 ≤ n && n ≤ 0x200a) || n == 0x2028 || n == 0x2029 || n == 0x202f || n == 0x205f ||
  n == 0x3000

/-- White space or an information separator. -/
def isBlank (c : Char) : Bool := isWhiteSpace c || (0x1c ≤ c.toNat && c.toNat ≤ 0x1f)

/-- The text without its leading elements that satisfy `p`, and without its trailing ones. -/
def trimBy (p : Char → Bool) (cs : List Char) : List Char :=
  ((cs.dropWhile p).reverse.dropWhile p).reverse

def trimEndChars (cs : List Char) : List Char :=
  (cs.reverse.dropWhile isBlank).reverse

def trim (s : String) : String := String.ofList (trimBy isBlank s.toList)

def trimEnd (s : String) : String := String.ofList (trimEndChars s.toList)

def words (s : String) : List String := (runs (fun c => !isBlank c) s.toList).map String.ofList

/-- The text on one line: its blank-free runs, a single space between two of them. -/
def oneLine (s : String) : String := " ".intercalate (words s)

end AgentFlow.Text
