import AgentFlow.CommandLine.Command
import AgentFlow.Text.UpperCase

/-!
# The level of the log

Once its arguments are read, and before it looks for a file, a command sets up the log. The level
that is asked for is put into capitals and looked up among all that the logging library calls by a
name, and a name that is not there stands for the level of warnings. Not everything that the library
calls by a name in capitals is a level: with the two others the log cannot be set up, and nothing
catches that.
-/

namespace AgentFlow.CommandLine

/-! ## What the logging library knows by name -/

/-- A thing that the logging library has under a name: a level, a text, or a table of styles. -/
inductive LogEntry where
  | level (n : Nat)
  | text (s : String)
  | styles
  deriving DecidableEq, Repr

/-- Everything that the logging library has under a name in capitals. -/
def logEntries : List (String × LogEntry) := [
  ("CRITICAL", .level 50), ("FATAL", .level 50), ("ERROR", .level 40), ("WARNING", .level 30),
  ("WARN", .level 30), ("INFO", .level 20), ("DEBUG", .level 10), ("NOTSET", .level 0),
  ("BASIC_FORMAT", .text "%(levelname)s:%(name)s:%(message)s"), ("_STYLES", .styles)]

/-- Why the log cannot be set up: a text is not the name of a level, or something is neither a level
nor a text. -/
inductive LogError where
  | unknownLevel (name : String)
  | notALevel
  deriving DecidableEq, Repr

/-- The level that an entry stands for. A text would have to be the name of one. -/
def LogEntry.toLevel : LogEntry → Except LogError Nat
  | .level n => .ok n
  | .text s =>
    match logEntries.lookup s with
    | some (.level n) => .ok n
    | _ => .error (.unknownLevel s)
  | .styles => .error .notALevel

/-! ## The level that is asked for -/

def warningLevel : Nat := 30

/-- The level of a log that neither the arguments nor the environment ask a level for. -/
def defaultLogLevel : String := "WARNING"

def askedLogLevel (args : List String) : Option String :=
  match mainGrammar.parse args with
  | .ok outer => outer.value? logOption.key
  | .error _ => none

/-- The level that a name in capitals stands for. -/
def levelNamed (name : String) : Except LogError Nat :=
  match logEntries.lookup name with
  | some entry => entry.toLevel
  | none => .ok warningLevel

/-- The level at which the log is set up. To ask for an empty name is to ask for none. -/
def setUpLog (asked : Option String) : Except LogError Nat :=
  let given := asked.getD ""
  levelNamed (Text.upper (if given = "" then defaultLogLevel else given))

end AgentFlow.CommandLine
