import AgentFlow.Text.DecimalDigit
import AgentFlow.Text.Lines
import AgentFlow.Text.Quoted

/-!
# Arguments of a command

An argument is an option, an operand, or the separator `--` after which everything is an operand.
Long options may be cut short as long as only one option starts that way, and may carry their value
after an equals sign. `Grammar.parse` sorts the arguments of a command into the values of its
options, its operands, and what belongs to neither.
-/

namespace AgentFlow.CommandLine

open Text (dropFinalLineFeed isDecimalDigit quoted)

/-- An option by its names; it takes a value or is a flag. -/
structure Opt where
  names : List String
  takesValue : Bool
  deriving DecidableEq, Repr

inductive UsageError where
  | ambiguous (argument : String) (candidates : List String)
  | valueExpected (option : Opt)
  | valueIgnored (option : Opt) (value : String)
  | missing (operands : List String)
  | unknownCommand (name : String) (known : List String)
  | unrecognized (arguments : List String)
  deriving DecidableEq, Repr

/-- An option as messages name it. -/
def Opt.shown (o : Opt) : String := "/".intercalate o.names

def UsageError.message : UsageError → String
  | .ambiguous argument candidates =>
    "ambiguous option: " ++ argument ++ " could match " ++ ", ".intercalate candidates
  | .valueExpected o => "argument " ++ o.shown ++ ": expected one argument"
  | .valueIgnored o value =>
    "argument " ++ o.shown ++ ": ignored explicit argument " ++ quoted value
  | .missing operands =>
    "the following arguments are required: " ++ ", ".intercalate operands
  | .unknownCommand name known =>
    "argument command: invalid choice: " ++ quoted name ++ " (choose from " ++
      ", ".intercalate (known.map quoted) ++ ")"
  | .unrecognized arguments => "unrecognized arguments: " ++ " ".intercalate arguments

/-- The use of an option: which one, under which of its names, and the value attached to it. -/
structure OptionUse where
  option : Opt
  name : String
  attached : Option String
  deriving DecidableEq, Repr

/-- An argument by its kind; an option that is not known has no use. -/
inductive Argument where
  | operand (text : String)
  | separator
  | option (text : String) (use : Option OptionUse)
  deriving DecidableEq, Repr

def Argument.text : Argument → String
  | .operand text | .option text _ => text
  | .separator => "--"

/-- The two sides of the first equals sign of a text. -/
def splitAtEquals (cs : List Char) : Option (List Char × List Char) :=
  match cs.dropWhile (· != '=') with
  | [] => none
  | _ :: value => some (cs.takeWhile (· != '='), value)

def allNames (options : List Opt) : List (String × Opt) :=
  options.flatMap fun o => o.names.map fun name => (name, o)

/-- The options that an argument with two dashes may be short for. -/
def longCandidates (options : List Opt) (cs : List Char) : List OptionUse :=
  let (start, attached) := match splitAtEquals cs with
    | some (start, value) => (start, some (String.ofList value))
    | none => (cs, none)
  (allNames options).filterMap fun (name, o) =>
    if start.isPrefixOf name.toList then some ⟨o, name, attached⟩ else none

/-- The options that an argument with one dash may mean: the one of its first letter, with the rest
attached, or one that starts like it. -/
def shortCandidates (options : List Opt) (cs : List Char) : List OptionUse :=
  (allNames options).filterMap fun (name, o) =>
    if name.toList = cs.take 2 then
      some ⟨o, name, some (String.ofList (cs.drop 2))⟩
    else if cs.isPrefixOf name.toList then some ⟨o, name, none⟩
    else none

/-- The options that an argument may mean without being one of their names. -/
def candidates (options : List Opt) (cs : List Char) : List OptionUse :=
  match cs with
  | '-' :: '-' :: _ => longCandidates options cs
  | _ => shortCandidates options cs

/-- The argument is a negative number, perhaps with a line feed after it. -/
def isNegativeNumber (cs : List Char) : Bool :=
  match dropFinalLineFeed cs with
  | '-' :: number =>
    match number.dropWhile isDecimalDigit with
    | [] => !number.isEmpty
    | '.' :: fraction => !fraction.isEmpty && fraction.all isDecimalDigit
    | _ => false
  | _ => false

/-- The use of an option that is written out, perhaps with a value after an equals sign. -/
def exactUse? (options : List Opt) (cs : List Char) : Option OptionUse :=
  let known := allNames options
  let text := String.ofList cs
  match known.lookup text with
  | some o => some ⟨o, text, none⟩
  | none => do
    let (name, value) ← splitAtEquals cs
    let o ← known.lookup (String.ofList name)
    return ⟨o, String.ofList name, some (String.ofList value)⟩

def classify (options : List Opt) (text : String) : Except UsageError Argument :=
  let cs := text.toList
  if cs.head? ≠ some '-' || cs.length = 1 then .ok (.operand text)
  else match exactUse? options cs with
    | some use => .ok (.option text (some use))
    | none =>
      match candidates options cs with
      | [use] => .ok (.option text (some use))
      | [] =>
        -- what looks like an option but is none may still be an operand
        if isNegativeNumber cs || cs.contains ' ' then .ok (.operand text)
        else .ok (.option text none)
      | several => .error (.ambiguous text (several.map OptionUse.name))

/-- The kinds of all arguments; after a separator everything is an operand. -/
def classifyAll (options : List Opt) : List String → Except UsageError (List Argument)
  | [] => .ok []
  | text :: rest => do
    if text = "--" then return .separator :: rest.map .operand
    else
      let a ← classify options text
      return a :: (← classifyAll options rest)

structure Grammar where
  /-- The options. -/
  options : List Opt
  /-- The names of the operands. -/
  operands : List String
  /-- The last operand takes all arguments after it too, of whatever kind. -/
  takesRest : Bool

structure Sorted where
  /-- The values of options, each with the option's last name, and flags without a value. -/
  values : List (String × Option String) := []
  /-- The operands; the one that takes the rest is followed by it. -/
  operands : List String := []
  /-- What belongs to no option and no operand. -/
  extras : List String := []
  deriving DecidableEq, Repr

def Opt.key (o : Opt) : String := o.names.getLast?.getD ""

/-- The values that options give, each with the name that it is kept under. -/
abbrev Values := List (String × Option String)

/-- What the letters after a flag with one dash give: each names one more flag. -/
def letterFlags (options : List Opt) (o : Opt) : List Char → Except UsageError Values
  | [] => .ok [(o.key, none)]
  | c :: rest =>
    match (allNames options).lookup (String.ofList ['-', c]) with
    | none => .error (.valueIgnored o (String.ofList (c :: rest)))
    | some next => (letterFlags options next rest).map fun values => (o.key, none) :: values

/-- What the use of an option gives, and the arguments after it. -/
def takeOption (options : List Opt) (use : OptionUse) (rest : List Argument) :
    Except UsageError (Values × List Argument) :=
  let o := use.option
  match o.takesValue, use.attached with
  | true, some value => .ok ([(o.key, some value)], rest)
  | true, none =>
    match rest with
    -- only an operand can be a value
    | .operand value :: rest => .ok ([(o.key, some value)], rest)
    | _ => .error (.valueExpected o)
  | false, none => .ok ([(o.key, none)], rest)
  | false, some value =>
    if use.name.startsWith "--" || value.isEmpty then .error (.valueIgnored o value)
    else (letterFlags options o value.toList).map fun values => (values, rest)

theorem length_takeOption {options : List Opt} {use : OptionUse} {rest rest' : List Argument}
    {values : Values} (h : takeOption options use rest = .ok (values, rest')) :
    rest'.length ≤ rest.length := by
  simp only [takeOption] at h
  split at h
  · cases h; exact Nat.le_refl _
  · split at h
    · cases h; exact Nat.le_succ _
    · cases h
  · cases h; exact Nat.le_refl _
  · split at h
    · cases h
    · simp only [Except.map] at h
      split at h
      · cases h
      · cases h; exact Nat.le_refl _

/-- The separators at the start of some arguments are dropped. -/
def skipSeparators : List Argument → List Argument
  | .separator :: rest => skipSeparators rest
  | rest => rest

theorem length_skipSeparators (as : List Argument) :
    (skipSeparators as).length ≤ as.length := by
  induction as with
  | nil => exact Nat.le_refl _
  | cons a rest ih =>
    cases a with
    | separator => exact Nat.le_succ_of_le ih
    | operand | option => exact Nat.le_refl _

/-- Something about options: help is asked for, or something is wrong. -/
inductive Stop where
  | help
  | wrong (reason : UsageError)
  deriving DecidableEq, Repr

def helpOption : Opt := ⟨["-h", "--help"], false⟩

/-- The arguments sorted; `missing` are the operands that have not come yet. -/
def sortArguments (g : Grammar) (missing : List String) (found : Sorted) (args : List Argument) :
    Except Stop (List String × Sorted) :=
  match args with
  | [] => .ok (missing, found)
  | .option text none :: rest =>
    sortArguments g missing { found with extras := found.extras ++ [text] } rest
  | .option _ (some use) :: rest =>
    match _h : takeOption g.options use rest with
    | .error reason => .error (.wrong reason)
    | .ok (values, rest') =>
      -- help stops everything, also what is wrong later on
      if values.any (·.1 == helpOption.key) then .error .help
      else sortArguments g missing { found with values := found.values ++ values } rest'
  | first :: rest =>
    match _h : skipSeparators (first :: rest), missing with
    | .operand text :: after, _ :: others =>
      -- what comes behind a command is sorted by the command itself
      if g.takesRest && others.isEmpty then
        .ok ([], { found with operands := found.operands ++ (first :: rest).map Argument.text })
      else
        sortArguments g others { found with operands := found.operands ++ [text] }
          (skipSeparators after)
    | _, _ =>
      sortArguments g missing { found with extras := found.extras ++ [first.text] } rest
termination_by args.length
decreasing_by
  · simp
  · have := length_takeOption _h
    simp only [List.length_cons]
    omega
  · have h1 := length_skipSeparators (first :: rest)
    have h2 := length_skipSeparators after
    rw [_h] at h1
    simp only [List.length_cons] at h1 h2 ⊢
    omega
  · simp

/-- The arguments of a command, sorted; all its operands have to be there. -/
def Grammar.parse (g : Grammar) (args : List String) : Except Stop Sorted :=
  match classifyAll g.options args with
  | .error reason => .error (.wrong reason)
  | .ok arguments =>
    match sortArguments g g.operands {} arguments with
    | .error stop => .error stop
    | .ok ([], found) => .ok found
    | .ok (missing, _) => .error (.wrong (.missing missing))

/-- The value of an option that was given last. -/
def Sorted.value? (s : Sorted) (key : String) : Option String :=
  (s.values.reverse.lookup key).join

def Sorted.hasFlag (s : Sorted) (key : String) : Bool := (s.values.lookup key).isSome

end AgentFlow.CommandLine
