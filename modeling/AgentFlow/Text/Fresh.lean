/-!
# Fresh names

A name that is taken gets a number: `fresh sep base used` is `base` if that is free, and otherwise
`base`, the separator `sep` and the least number from 2 on that makes a free name.
-/

namespace AgentFlow.Text

/-- The `n`-th variant of a name. -/
def numbered (sep base : String) (n : Nat) : String := base ++ sep ++ n.repr

/-- The first free name among the variants from `n` on, looking at no more than `probes` of them
before the one that is returned unseen. -/
def firstFree (used : List String) (name : Nat → String) : (probes n : Nat) → String
  | 0, n => name n
  | probes + 1, n => if name n ∈ used then firstFree used name probes (n + 1) else name n

/-- `base` itself if it is free, and otherwise its least free variant. As many probes as there are
used names are enough: the variants are distinct, and `base` is one of the used names. -/
def fresh (sep base : String) (used : List String) : String :=
  if base ∈ used then firstFree used (numbered sep base) used.length 2 else base

/-- The fresh names of a list of candidates, each in turn avoiding `used` and the names given to the
candidates before it. -/
def freshAll (sep : String) : (used candidates : List String) → List String
  | _, [] => []
  | used, base :: rest =>
    let name := fresh sep base used
    name :: freshAll sep (name :: used) rest

end AgentFlow.Text
