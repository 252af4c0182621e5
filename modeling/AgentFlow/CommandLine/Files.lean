import AgentFlow.Text.Runs

/-!
# Files by path

A command finds its file by a path from the directory that it runs in. What is known of the disk is
that directory, with the files in it and in the directories under it, and that the directories above
it are there.
-/

namespace AgentFlow.CommandLine

inductive FileState where
  | absent
  | directory
  | nameTooLong
  | text (s : String)

/-- The slashes at the start of a path: one, or exactly two. -/
def pathRoot (cs : List Char) : String :=
  match (cs.takeWhile (· == '/')).length with
  | 0 => ""
  | 2 => "//"
  | _ => "/"

/-- The parts of a path between slashes, without empty ones and single dots. -/
def pathParts (cs : List Char) : List String :=
  ((Text.runs (· != '/') cs).filter (· ≠ ['.'])).map String.ofList

/-- A path without what does not change its meaning: repeated slashes, slashes at the end, and
single dots. -/
def tidyPath (path : String) : String :=
  let cs := path.toList
  let tidy := pathRoot cs ++ "/".intercalate (pathParts cs)
  if tidy.isEmpty then "." else tidy

def partLimit : Nat := 255

def pathLimit : Nat := 4095

/-- Files, each under the parts of its path. -/
abbrev Files := List (List String × String)

def Files.ofPaths (files : List (String × String)) : Files :=
  files.map fun (path, text) => (pathParts path.toList, text)

/-- Where the steps of a path lead, one part after the other. `here` is the directory that was
reached, its last part first, or nothing if it lies outside of the known one. -/
def Files.follow (files : Files) (here : Option (List String)) : List String → FileState
  | [] => .directory
  | part :: rest =>
    if partLimit < part.utf8ByteSize then .nameTooLong
    else match here, part with
      | none, ".." => files.follow none rest
      | none, _ => .absent
      -- above the known directory only `..` leads on
      | some [], ".." => files.follow none rest
      | some (_ :: above), ".." => files.follow (some above) rest
      | some above, _ =>
        let place := (part :: above).reverse
        match files.lookup place with
        | some text => if rest.isEmpty then .text text else .absent
        | none =>
          -- a directory is there if some file lies under it
          if files.any fun (parts, _) => place.isPrefixOf parts then
            files.follow (some (part :: above)) rest
          else .absent

def Files.state (files : Files) (path : String) : FileState :=
  if path.contains '\x00' then .absent
  else if pathLimit < path.utf8ByteSize then .nameTooLong
  else
    -- a path from the root leads around the known directory
    let here := if path.startsWith "/" then none else some []
    files.follow here (pathParts path.toList)

end AgentFlow.CommandLine
