import AgentFlow.Skeleton.Dialect
import AgentFlow.Proofs.Text.LiteralReading
import AgentFlow.Proofs.Text.Names
import AgentFlow.Proofs.Text.Pieces

/-!
# Reading the builder of a program

A program builds its graph by calls, one or more lines each. A reader goes through the lines one by
one, skips blank lines and comments, matches every other line against the patterns that its stage
allows, and collects the calls. How a literal is decoded is a parameter; all that matters is that
decoding stops right behind the closing quote.
-/

namespace AgentFlow.Skeleton

open Text

variable {σ α β : Type}

/-! ## What a builder says -/

/-- A call by which a program builds its graph. -/
inductive Call (α : Type) where
  | node (key : α)
  | entry (key : α)
  | edge (source target : α)
  | table (source : α) (rows : List (α × α))
  | sink (key : α)
  deriving DecidableEq, Repr

/-- The graph that a program builds: its nodes, where it starts, its plain edges, its routing tables
with the rows of each, and where it ends. -/
structure Wiring (α : Type) where
  nodes : List α
  entries : List α
  edges : List (α × α)
  tables : List (α × List (α × α))
  sinks : List α
  deriving DecidableEq, Repr

def Wiring.ofCalls (calls : List (Call α)) : Wiring α where
  nodes := calls.filterMap fun | .node key => some key | _ => none
  entries := calls.filterMap fun | .entry key => some key | _ => none
  edges := calls.filterMap fun | .edge source target => some (source, target) | _ => none
  tables := calls.filterMap fun | .table source rows => some (source, rows) | _ => none
  sinks := calls.filterMap fun | .sink key => some key | _ => none

/-! ## Lines -/

/-- A way to decode literals: the meaning of the literal at the start, and what follows it. -/
abbrev Decoder (α : Type) := List Char → Option (α × List Char)

/-- An argument in a line: a name, or the meaning of a literal. -/
inductive Argument (α : Type) where
  | name (s : String)
  | text (a : α)

/-- The argument at the start of a line, and what follows it. -/
def readArgument (decode : Decoder α) (cs : List Char) : Option (Argument α × List Char) :=
  if cs.head? = some '\x22' then (decode cs).map fun (a, rest) => (.text a, rest)
  else if cs.takeWhile isNameChar = [] then none
  else some (.name (String.ofList (cs.takeWhile isNameChar)), cs.dropWhile isNameChar)

/-- A part of a line: a given text, an argument, or all that is left. -/
inductive Piece where
  | text (s : String)
  | argument
  | rest

/-- The arguments of a line that is made of the given parts. -/
def scan (decode : Decoder α) : List Piece → List Char → Option (List (Argument α))
  | [], [] => some []
  | [], _ :: _ => none
  | .text s :: pieces, cs =>
    match s.toList.isPrefixOf? cs with
    | some rest => scan decode pieces rest
    | none => none
  | .argument :: pieces, cs =>
    (readArgument decode cs).bind fun (a, rest) => (scan decode pieces rest).map (a :: ·)
  | .rest :: _, _ => some []

/-- A line that may come next: its parts, and what its arguments do. -/
structure Rule (σ α : Type) where
  pattern : List Piece
  action : List (Argument α) → Option (σ × List (Call α))

/-- What the first rule that fits makes of a line. -/
def applyRules (decode : Decoder α) (rules : List (Rule σ α)) (line : List Char) :
    Option (σ × List (Call α)) :=
  rules.findSome? fun rule => (scan decode rule.pattern line).bind rule.action

/-- The call that connects the two ends in a line. -/
def connect : List (Argument α) → Option (Call α)
  | [.name "START", .text key] => some (.entry key)
  | [.text source, .text target] => some (.edge source target)
  | [.text key, .name "END"] => some (.sink key)
  | _ => none

/-- The text in front of the name of a function. -/
def attached : List (Argument α) → Option α
  | [.text key, .name _] => some key
  | _ => none

def row : List (Argument α) → Option (α × α)
  | [.text key, .text target] => some (key, target)
  | _ => none

/-! ## Programs -/

/-- How the builder of a program is laid out. -/
structure Layout (σ α : Type) where
  /-- A line without indentation is a comment. -/
  isComment : List Char → Bool
  /-- The stage before the first line. -/
  start : σ
  /-- The builder may end at this stage. -/
  isDone : σ → Bool
  /-- The stage after a line without indentation, and the calls that the line completes. -/
  step : σ → List Char → Option (σ × List (Call α))

def unindent (line : List Char) : List Char := line.dropWhile (· == ' ')

/-- The list from the last element on that has a property. -/
def fromLast (p : β → Bool) : List β → Option (List β)
  | [] => none
  | b :: rest =>
    match fromLast p rest with
    | some found => some found
    | none => if p b then some (b :: rest) else none

namespace Layout

variable (l : Layout σ α)

/-- The line is blank or a comment. -/
def isSkipped (line : List Char) : Bool :=
  (unindent line).isEmpty || l.isComment (unindent line)

/-- The stage after a line, and the calls that it completes. -/
def readLine (stage : σ) (line : List Char) : Option (σ × List (Call α)) :=
  if l.isSkipped line then some (stage, []) else l.step stage (unindent line)

/-- The stage after some lines, and the calls in them. -/
def readLines : (stage : σ) → List (List Char) → Option (σ × List (Call α))
  | stage, [] => some (stage, [])
  | stage, line :: rest =>
    (l.readLine stage line).bind fun (next, calls) =>
      (readLines next rest).map fun (last, more) => (last, calls ++ more)

/-- A builder can start with the line. -/
def isFirst (line : List Char) : Bool := (l.step l.start line).isSome

/-- The graph that a program builds, read from the last line on with which a builder can start. -/
def read (program : String) : Option (Wiring α) :=
  (fromLast l.isFirst (pieces (· == '\n') program.toList)).bind fun lines =>
    (l.readLines l.start lines).bind fun (stage, calls) =>
      if l.isDone stage then some (.ofCalls calls) else none

end Layout

/-! ## Scanning lines -/

section Scan

variable {decode : Decoder α} {denote : String → α}

/-- The decoder finds the meaning of every literal, and stops right behind it. -/
def Decodes (decode : Decoder α) (denote : String → α) : Prop :=
  ∀ s rest, decode ((literal s).toList ++ rest) = some (denote s, rest)

theorem exists_literal_cons (s : String) : ∃ cs, (literal s).toList = '\x22' :: cs := by
  rw [literal, String.toList_ofList]
  exact ⟨_, rfl⟩

/-- What starts with a quote is left to the decoder. -/
theorem readArgument_literal (h : Decodes decode denote) (s : String) (rest : List Char) :
    readArgument decode ((literal s).toList ++ rest) = some (.text (denote s), rest) := by
  have hquote : ((literal s).toList ++ rest).head? = some '\x22' := by
    obtain ⟨cs, hcs⟩ := exists_literal_cons s
    rw [hcs]
    rfl
  rw [readArgument, if_pos hquote, h s rest]
  rfl

/-- A name ends at the first character that no name has. -/
theorem readArgument_name {name : String} (hne : name ≠ "")
    (hchars : ∀ c ∈ name.toList, isNameChar c = true) {c : Char} (hc : isNameChar c = false)
    (rest : List Char) :
    readArgument decode (name.toList ++ c :: rest) = some (.name name, c :: rest) := by
  -- the name is taken whole, and what is behind it is left
  have htake : (name.toList ++ c :: rest).takeWhile isNameChar = name.toList := by
    rw [List.takeWhile_append_of_pos hchars, List.takeWhile_cons_of_neg (by simp [hc]),
      List.append_nil]
  have hdrop : (name.toList ++ c :: rest).dropWhile isNameChar = c :: rest := by
    rw [List.dropWhile_append_of_pos hchars, List.dropWhile_cons_of_neg (by simp [hc])]
  have hnil : name.toList ≠ [] := fun h => hne (String.toList_injective h)
  -- A quote is no character of a name, so the line is not taken for one with a literal.
  have hnotQuote : (name.toList ++ c :: rest).head? ≠ some '\x22' := by
    obtain ⟨first, others, hname⟩ := List.exists_cons_of_ne_nil hnil
    rw [hname, List.cons_append, List.head?_cons]
    rintro ⟨⟩
    have := hchars '\x22' (by simp [hname])
    exact absurd this (by decide)
  rw [readArgument, if_neg hnotQuote, htake, hdrop, if_neg hnil, String.ofList_toList]

@[simp] theorem scan_nil : scan decode [] [] = some [] := rfl

@[simp] theorem scan_rest (pieces : List Piece) (cs : List Char) :
    scan decode (.rest :: pieces) cs = some [] := rfl

@[simp] theorem scan_text (s : String) (pieces : List Piece) (cs : List Char) :
    scan decode (.text s :: pieces) cs = match s.toList.isPrefixOf? cs with
      | some rest => scan decode pieces rest
      | none => none := rfl

theorem scan_argument (pieces : List Piece) (cs : List Char) :
    scan decode (.argument :: pieces) cs =
      (readArgument decode cs).bind fun (a, rest) => (scan decode pieces rest).map (a :: ·) := rfl

/-- A literal is one argument. -/
theorem scan_literal (h : Decodes decode denote) (s : String) (pieces : List Piece)
    (rest : List Char) : scan decode (.argument :: pieces) ((literal s).toList ++ rest) =
      (scan decode pieces rest).map (.text (denote s) :: ·) := by
  rw [scan_argument, readArgument_literal h]
  rfl

/-- A name is one argument, if something else follows it. -/
theorem scan_name {name : String} (h : IsName name) {c : Char} (hc : isNameChar c = false)
    (pieces : List Piece) (rest : List Char) :
    scan decode (.argument :: pieces) (name.toList ++ c :: rest) =
      (scan decode pieces (c :: rest)).map (.name name :: ·) := by
  have hne : name ≠ "" := by
    rintro rfl
    obtain ⟨c, hc, -⟩ := h.head
    cases hc
  rw [scan_argument, readArgument_name hne h.chars hc]
  rfl

/-- No argument starts with another character. -/
theorem scan_other {c : Char} (hquote : c ≠ '\x22') (hc : isNameChar c = false)
    (pieces : List Piece) (cs : List Char) :
    scan decode (.argument :: pieces) (c :: cs) = none := by
  rw [scan_argument, readArgument]
  simp [hquote, hc]

@[simp] theorem scan_start (pieces : List Piece) (rest : List Char) :
    scan decode (.argument :: pieces) ('S' :: 'T' :: 'A' :: 'R' :: 'T' :: ',' :: rest) =
      (scan decode pieces (',' :: rest)).map (.name "START" :: ·) := by
  have hread : readArgument decode ("START".toList ++ ',' :: rest) =
      some (.name "START", ',' :: rest) :=
    readArgument_name (by decide) (List.all_eq_true.1 rfl) rfl rest
  rw [scan_argument]
  exact congrArg (Option.bind · _) hread

@[simp] theorem scan_end (pieces : List Piece) (rest : List Char) :
    scan decode (.argument :: pieces) ('E' :: 'N' :: 'D' :: ')' :: rest) =
      (scan decode pieces (')' :: rest)).map (.name "END" :: ·) := by
  have hread : readArgument decode ("END".toList ++ ')' :: rest) =
      some (.name "END", ')' :: rest) :=
    readArgument_name (by decide) (List.all_eq_true.1 rfl) rfl rest
  rw [scan_argument]
  exact congrArg (Option.bind · _) hread

@[simp] theorem scan_metadata (pieces : List Piece) (rest : List Char) :
    scan decode (.argument :: pieces)
      ('m' :: 'e' :: 't' :: 'a' :: 'd' :: 'a' :: 't' :: 'a' :: '=' :: rest) =
      (scan decode pieces ('=' :: rest)).map (.name "metadata" :: ·) := by
  have hread : readArgument decode ("metadata".toList ++ '=' :: rest) =
      some (.name "metadata", '=' :: rest) :=
    readArgument_name (by decide) (List.all_eq_true.1 rfl) rfl rest
  rw [scan_argument]
  exact congrArg (Option.bind · _) hread

@[simp] theorem applyRules_nil (line : List Char) :
    applyRules decode ([] : List (Rule σ α)) line = none := rfl

@[simp] theorem applyRules_cons (rule : Rule σ α) (rules : List (Rule σ α)) (line : List Char) :
    applyRules decode (rule :: rules) line =
      ((scan decode rule.pattern line).bind rule.action).or (applyRules decode rules line) := by
  rw [applyRules, List.findSome?_cons]
  cases (scan decode rule.pattern line).bind rule.action <;> rfl

end Scan

/-! ## Reading lines -/

/-- The last element that has the property is found whatever stands in front of it. -/
theorem fromLast_append_cons {p : β → Bool} (before : List β) {b : β} {rest : List β}
    (hb : p b = true) (hrest : ∀ c ∈ rest, p c = false) :
    fromLast p (before ++ b :: rest) = some (b :: rest) := by
  -- nothing behind it has the property
  have hnone : fromLast p rest = none := by
    clear hb
    induction rest with
    | nil => rfl
    | cons c rest ih =>
      obtain ⟨hc, hrest⟩ := List.forall_mem_cons.1 hrest
      simp [fromLast, ih hrest, hc]
  induction before with
  | nil => simp [fromLast, hnone, hb]
  | cons c before ih => rw [List.cons_append, fromLast, ih]

namespace Layout

variable {l : Layout σ α} {stage mid last : σ} {calls more : List (Call α)} {lines : List String}

@[simp] theorem readLine_space (line : List Char) :
    l.readLine stage (' ' :: line) = l.readLine stage line := rfl

theorem readLine_of_unindent {line line' : List Char} (h : unindent line = unindent line') :
    l.readLine stage line = l.readLine stage line' := by
  unfold readLine isSkipped
  rw [h]

/-- A line that is not indented, not blank and no comment. -/
theorem readLine_cons {c : Char} {cs : List Char} (hc : c ≠ ' ')
    (hcomment : l.isComment (c :: cs) = false) :
    l.readLine stage (c :: cs) = l.step stage (c :: cs) := by
  have hunindent : unindent (c :: cs) = c :: cs := by simp [unindent, hc]
  simp [readLine, isSkipped, hunindent, hcomment]

theorem readLine_comment {c : Char} {cs : List Char} (hc : c ≠ ' ')
    (hcomment : l.isComment (c :: cs) = true) :
    l.readLine stage (c :: cs) = some (stage, []) := by
  have hunindent : unindent (c :: cs) = c :: cs := by simp [unindent, hc]
  simp [readLine, isSkipped, hunindent, hcomment]

@[simp] theorem readLine_nil : l.readLine stage [] = some (stage, []) := rfl

def IsLine (s : String) : Prop := '\n' ∉ s.toList

/-- From one stage to another the reader finds some calls in some lines. -/
structure Reads (l : Layout σ α) (stage : σ) (lines : List String) (last : σ)
    (calls : List (Call α)) : Prop where
  isLine : ∀ line ∈ lines, IsLine line
  readLines_eq : l.readLines stage (lines.map String.toList) = some (last, calls)

theorem Reads.nil : l.Reads stage [] stage [] := ⟨by simp, rfl⟩

/-- Reading lines is reading the first one and going on from the stage behind it. -/
theorem reads_cons_iff {line : String} {rest : List String} :
    l.Reads stage (line :: rest) last calls ↔
      ∃ mid first more, IsLine line ∧ l.readLine stage line.toList = some (mid, first) ∧
        l.Reads mid rest last more ∧ calls = first ++ more := by
  constructor
  · rintro ⟨hlines, hread⟩
    obtain ⟨hline, hrest⟩ := List.forall_mem_cons.1 hlines
    rw [List.map_cons, readLines] at hread
    obtain ⟨⟨mid, first⟩, hfirst, hread⟩ := Option.bind_eq_some_iff.1 hread
    obtain ⟨⟨last', more⟩, hmore, heq⟩ := Option.map_eq_some_iff.1 hread
    obtain ⟨rfl, rfl⟩ := Prod.mk.inj heq
    exact ⟨mid, first, more, hline, hfirst, ⟨hrest, hmore⟩, rfl⟩
  · rintro ⟨mid, first, more, hline, hfirst, ⟨hrest, hmore⟩, rfl⟩
    exact ⟨List.forall_mem_cons.2 ⟨hline, hrest⟩, by simp [readLines, hfirst, hmore]⟩

/-- Lines are read piece by piece. -/
theorem Reads.append {lines' : List String} (h : l.Reads stage lines mid calls)
    (h' : l.Reads mid lines' last more) : l.Reads stage (lines ++ lines') last (calls ++ more) := by
  induction lines generalizing stage calls with
  | nil =>
    obtain ⟨rfl, rfl⟩ : stage = mid ∧ [] = calls := by simpa [readLines] using h.readLines_eq
    exact h'
  | cons line rest ih =>
    obtain ⟨next, first, others, hline, hfirst, hrest, rfl⟩ := reads_cons_iff.1 h
    exact reads_cons_iff.2
      ⟨next, first, others ++ more, hline, hfirst, ih hrest, List.append_assoc ..⟩

theorem Reads.of_skipped
    (h : ∀ line ∈ lines, IsLine line ∧ l.readLine stage line.toList = some (stage, [])) :
    l.Reads stage lines stage [] := by
  induction lines with
  | nil => exact Reads.nil
  | cons line rest ih =>
    obtain ⟨⟨hline, hread⟩, hrest⟩ := List.forall_mem_cons.1 h
    exact reads_cons_iff.2 ⟨stage, [], [], hline, hread, ih hrest, rfl⟩

theorem Reads.blank : l.Reads stage [""] stage [] := ⟨by simp [IsLine], rfl⟩

/-- Blocks of lines with one call each, from a stage back to it. -/
theorem Reads.flatMap {as : List β} {block : β → List String} {call : β → Call α}
    (h : ∀ a ∈ as, l.Reads stage (block a) stage [call a]) :
    l.Reads stage (as.flatMap block) stage (as.map call) := by
  induction as with
  | nil => exact Reads.nil
  | cons a rest ih =>
    obtain ⟨ha, hrest⟩ := List.forall_mem_cons.1 h
    exact Reads.append ha (ih hrest)

/-- Blocks with a name in each. -/
theorem Reads.flatMap_zip {as : List β} {names : List String} {block : β → String → List String}
    {call : β → Call α} (hlength : names.length = as.length) (hnames : ∀ name ∈ names, IsName name)
    (h : ∀ a ∈ as, ∀ name, IsName name → l.Reads stage (block a name) stage [call a]) :
    l.Reads stage ((as.zip names).flatMap fun (a, name) => block a name) stage (as.map call) := by
  have hcalls : (as.zip names).map (fun pair => call pair.1) = as.map call := by
    have hfst : (as.zip names).map Prod.fst = as := List.map_fst_zip hlength.ge
    rw [← congrArg (List.map call) hfst, List.map_map]
    rfl
  have hblocks : ∀ pair ∈ as.zip names,
      l.Reads stage (block pair.1 pair.2) stage [call pair.1] := by
    rintro ⟨a, name⟩ hpair
    obtain ⟨ha, hname⟩ := List.of_mem_zip hpair
    exact h a ha name (hnames name hname)
  rw [← hcalls]
  exact Reads.flatMap hblocks

theorem Reads.map_zip {as : List β} {names : List String} {line : β → String → String}
    {call : β → Call α} (hlength : names.length = as.length) (hnames : ∀ name ∈ names, IsName name)
    (h : ∀ a ∈ as, ∀ name, IsName name → l.Reads stage [line a name] stage [call a]) :
    l.Reads stage ((as.zip names).map fun (a, name) => line a name) stage (as.map call) := by
  rw [List.map_eq_flatMap]
  exact Reads.flatMap_zip hlength hnames h

/-- Lines with one call each, from a stage back to it. -/
theorem Reads.map_lines {as : List β} {line : β → String} {call : β → Call α}
    (h : ∀ a ∈ as, l.Reads stage [line a] stage [call a]) :
    l.Reads stage (as.map line) stage (as.map call) := by
  rw [List.map_eq_flatMap]
  exact Reads.flatMap h

/-- Lines that the stage keeps account of. -/
theorem Reads.found {γ : Type} {as : List β} {line : β → String} {entry : β → γ}
    {stageAt : List γ → σ}
    (h : ∀ a found, l.Reads (stageAt found) [line a] (stageAt (found ++ [entry a])) [])
    (found : List γ) :
    l.Reads (stageAt found) (as.map line) (stageAt (found ++ as.map entry)) [] := by
  induction as generalizing found with
  | nil =>
    rw [List.map_nil, List.map_nil, List.append_nil]
    exact Reads.nil
  | cons a rest ih =>
    have hrest := ih (found ++ [entry a])
    rw [List.append_assoc] at hrest
    exact (h a found).append hrest

/-- Indentation does not matter. -/
theorem Reads.indent {f : String → String} (h : l.Reads stage lines last calls)
    (hline : ∀ line, IsLine line → IsLine (f line))
    (hunindent : ∀ line, unindent (f line).toList = unindent line.toList) :
    l.Reads stage (lines.map f) last calls := by
  induction lines generalizing stage calls with
  | nil => exact h
  | cons line rest ih =>
    obtain ⟨next, first, others, hl, hfirst, hrest, rfl⟩ := reads_cons_iff.1 h
    rw [← readLine_of_unindent (hunindent line)] at hfirst
    exact reads_cons_iff.2 ⟨next, first, others, hline line hl, hfirst, ih hrest, rfl⟩

/-- Reading a program is reading the lines from the one on with which its builder starts, whatever
stands before them. -/
theorem read_eq_of_reads {program : List String} {before rest : List String} {first : String}
    (hprogram : program = before ++ first :: rest)
    (hfirst : l.isFirst first.toList = true)
    (hrest : ∀ line ∈ rest, l.isFirst line.toList = false) (hnil : l.isFirst [] = false)
    (hreads : l.Reads l.start (first :: rest) last calls) (hdone : l.isDone last = true) :
    l.read ("\n".intercalate program ++ "\n") = some (.ofCalls calls) := by
  -- the text is its lines, each with its end
  have htext : ("\n".intercalate program ++ "\n").toList =
      (before.map String.toList ++ (first :: rest).map String.toList).flatMap (· ++ ['\n']) := by
    rw [String.toList_append, String.toList_intercalate, ← List.map_append, ← hprogram]
    exact intercalate_append_eq_flatMap ['\n'] (by simp [hprogram])
  -- the lines of the builder are whole lines
  have hfree : ∀ line ∈ (first :: rest).map String.toList, ∀ c ∈ line, (c == '\n') = false := by
    intro cs hcs c hc
    obtain ⟨line, hline, rfl⟩ := List.mem_map.1 hcs
    rw [beq_eq_false_iff_ne]
    rintro rfl
    exact hreads.isLine line hline hc
  obtain ⟨earlier, hpieces⟩ :=
    exists_pieces_flatMap (· == '\n') (beq_self_eq_true '\n') (before.map String.toList) hfree
  -- The last piece is the empty one behind the last line end.
  have hlast : fromLast l.isFirst (earlier ++ ((first :: rest).map String.toList ++ [[]])) =
      some ((first :: rest ++ [""]).map String.toList) := by
    rw [List.map_cons, List.cons_append, fromLast_append_cons earlier hfirst]
    · simp
    · intro cs hcs
      rcases List.mem_append.1 hcs with hcs | hcs
      · obtain ⟨line, hline, rfl⟩ := List.mem_map.1 hcs
        exact hrest line hline
      · rwa [List.mem_singleton.1 hcs]
  have hall := (hreads.append .blank).readLines_eq
  rw [List.append_nil] at hall
  rw [read, htext, hpieces, hlast, Option.bind_some, hall, Option.bind_some]
  exact if_pos hdone

end Layout

end AgentFlow.Skeleton
