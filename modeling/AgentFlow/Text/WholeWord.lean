import AgentFlow.Text.Alphanumeric

/-!
# Whole words in running text

A word occurs as a whole word where it stands letter for letter, whatever the case, with no word
character directly before or after it. Word characters are the letters and numbers of any script
and the underscore.
-/

namespace AgentFlow.Text

def isWordChar (c : Char) : Bool := isAlphanumeric c || c == '_'

/-- `c` is the lower-case ASCII letter `letter` in some case: itself, its capital, the long s for
s, the Kelvin sign for k, or the i with its dot in the other place. -/
def sameLetter (letter c : Char) : Bool :=
  c.toLower == letter || (letter == 's' && c.toNat == 0x17f) ||
  (letter == 'k' && c.toNat == 0x212a) ||
  (letter == 'i' && (c.toNat == 0x130 || c.toNat == 0x131))

/-- What follows `word` at the start of the text, if the text starts with it in some case. -/
def afterWord? : (word cs : List Char) → Option (List Char)
  | [], cs => some cs
  | _ :: _, [] => none
  | letter :: word, c :: cs => if sameLetter letter c then afterWord? word cs else none

/-- The text starts with `word` and no word character follows it. -/
def startsWithWord (cs word : List Char) : Bool :=
  match afterWord? word cs with
  | none => false
  | some [] => true
  | some (c :: _) => !isWordChar c

/-- One of the vocabulary's words occurs in the text as a whole word; `joined` says that a word
character stands directly before the text. -/
def mentionsAny (vocabulary : List (List Char)) : (joined : Bool) → List Char → Bool
  | _, [] => false
  | joined, c :: cs =>
    (!joined && vocabulary.any (startsWithWord (c :: cs))) ||
      mentionsAny vocabulary (isWordChar c) cs

end AgentFlow.Text
