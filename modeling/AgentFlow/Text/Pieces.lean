/-!
# Pieces between separators

A text cut at every separator. There is one piece more than there are separators, so pieces may be
empty.
-/

namespace AgentFlow.Text

/-- The pieces of a text between the characters that are separators. -/
def pieces (isSeparator : Char → Bool) : List Char → List (List Char)
  | [] => [[]]
  | c :: cs =>
    if isSeparator c then [] :: pieces isSeparator cs
    else match pieces isSeparator cs with
      | [] => [[c]]
      | piece :: more => (c :: piece) :: more

/-- What comes before the first separator, and what comes after it, if there is one. -/
def cutAt (isSeparator : Char → Bool) (cs : List Char) : List Char × Option (List Char) :=
  match cs.dropWhile (!isSeparator ·) with
  | [] => (cs, none)
  | _ :: rest => (cs.takeWhile (!isSeparator ·), some rest)

end AgentFlow.Text
