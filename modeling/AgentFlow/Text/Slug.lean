import AgentFlow.Text.Blank

/-!
# Slugs

A slug is made of lower-case ASCII letters, digits and single underscores between them. The slug of
a text is its lower-case form with every run of other characters turned into one underscore, and
without underscores at its ends.
-/

namespace AgentFlow.Text

/-- The lower case of a character, as far as ASCII can see it: besides the capitals of ASCII, only
the Kelvin sign and the dotted capital I become an ASCII letter, the latter with a combining dot. -/
def lowerChar (c : Char) : List Char :=
  if c.toNat == 0x212a then ['k']
  else if c.toNat == 0x130 then ['i', '\u0307']
  else [c.toLower]

/-- The lower case of a text, as far as ASCII can see it. -/
def lower (cs : List Char) : List Char := cs.flatMap lowerChar

/-- The characters of a slug besides the underscore. -/
def isSlugChar (c : Char) : Bool := ('a' ≤ c && c ≤ 'z') || ('0' ≤ c && c ≤ '9')

/-- Every maximal run of characters that no slug holds becomes one underscore; `inGap` says that
the run before has been marked already. -/
def collapse : (inGap : Bool) → List Char → List Char
  | _, [] => []
  | inGap, c :: cs =>
    if isSlugChar c then c :: collapse false cs
    else if inGap then collapse true cs
    else '_' :: collapse true cs

def slugChars (cs : List Char) : List Char :=
  -- a run at either end leaves an underscore behind
  trimBy (· == '_') (collapse false (lower cs))

def slug (s : String) : String := String.ofList (slugChars s.toList)

end AgentFlow.Text
