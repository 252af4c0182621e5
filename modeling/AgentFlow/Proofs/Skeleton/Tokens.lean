import AgentFlow.Proofs.Text.LiteralReading
import AgentFlow.Proofs.Text.Names

/-!
# Tokens of programs

A lexer for the target languages. It goes through a text character by character, skips blanks,
comments and docstrings, and finds words, literals in double quotes and single marks. What it does
next depends on its mode only, so a text is read piece by piece (`Lexis.Reads.append`): a name is
one word (`Lexis.reads_name`), and a literal is one token whatever it says (`Lexis.reads_literal`).
-/

namespace AgentFlow.Skeleton

open Text

/-! ## The lexer -/

/-- A token of a program. The characters of a literal include its quotes. -/
inductive Token where
  | word (cs : List Char)
  | literal (raw : List Char)
  | mark (c : Char)
  deriving DecidableEq, Repr

/-- What the lexer must know of a language. -/
structure Lexis where
  /-- Two slashes start a comment, and so do a slash and a star, which ends at a star and a slash.
  Otherwise a number sign starts a comment, and three quotes are around a docstring. -/
  slashes : Bool
  /-- The characters that end a line. -/
  endsLine : Char → Bool
  endsLine_newline : endsLine '\n' = true
  blank_of_endsLine : ∀ c, endsLine c = true → c ≠ ' ' ∧ isBlank c = true

/-- Where the lexer is. -/
inductive Mode where
  | code
  /-- In a word, or right behind it. -/
  | word (cs : List Char)
  | text (raw : List Char)
  | escape (raw : List Char)
  /-- Right behind the closing quote of a literal. -/
  | closed (raw : List Char)
  | slash
  | note
  /-- In a docstring or in a long comment; so many of the closing characters are behind. -/
  | long (seen : Nat)
  | longEscape
  deriving DecidableEq, Repr

/-- The token that is complete if nothing that belongs to it follows. -/
def Mode.flush : Mode → List Token
  | .word cs => [.word cs]
  | .closed raw => [.literal raw]
  | .slash => [.mark '/']
  | _ => []

namespace Lexis

variable (l : Lexis)

/-- What a character of code starts, and the token that it is by itself. -/
def start (c : Char) : Mode × List Token :=
  if isNameChar c then (.word [c], [])
  else if c == '\x22' then (.text [c], [])
  else if c == '/' && l.slashes then (.slash, [])
  else if c == '#' && !l.slashes then (.note, [])
  else if isBlank c then (.code, [])
  else (.code, [.mark c])

/-- What a character starts behind a token. -/
def startBehind (mode : Mode) (c : Char) : Mode × List Token :=
  match l.start c with
  | (next, tokens) => (next, mode.flush ++ tokens)

/-- What a character does in a docstring or in a long comment. -/
def stepLong (seen : Nat) (c : Char) : Mode :=
  if l.slashes then
    if c == '*' then .long 1 else if c == '/' && seen == 1 then .code else .long 0
  else if c == '\x22' then if seen == 2 then .code else .long (seen + 1)
  else if c == '\x5c' then .longEscape
  else .long 0

/-- The mode behind a character, and the tokens that are complete with it. -/
def step : Mode → Char → Mode × List Token
  | .code, c => l.start c
  | .word cs, c => if isNameChar c then (.word (cs ++ [c]), []) else l.startBehind (.word cs) c
  | .text raw, c =>
    if c == '\x22' then (.closed (raw ++ [c]), [])
    else if c == '\x5c' then (.escape (raw ++ [c]), [])
    else (.text (raw ++ [c]), [])
  | .escape raw, c => (.text (raw ++ [c]), [])
  | .closed raw, c =>
    -- A quote behind the literal of the empty text: a docstring starts.
    if c == '\x22' && raw.length == 2 && !l.slashes then (.long 0, [])
    else l.startBehind (.closed raw) c
  | .slash, c =>
    if c == '/' then (.note, []) else if c == '*' then (.long 0, []) else l.startBehind .slash c
  | .note, c => (if l.endsLine c then .code else .note, [])
  | .long seen, c => (l.stepLong seen c, [])
  | .longEscape, _ => (.long 0, [])

/-- The mode behind a text, and the tokens that are complete in it. -/
def run : Mode → List Char → Mode × List Token
  | mode, [] => (mode, [])
  | mode, c :: cs =>
    match l.step mode c with
    | (next, tokens) =>
      match run next cs with
      | (last, more) => (last, tokens ++ more)

/-- The tokens of a text. -/
def tokens (s : String) : List Token :=
  match l.run .code s.toList with
  | (last, tokens) => tokens ++ last.flush

end Lexis

/-! ## Reading piece by piece -/

namespace Lexis

variable {l : Lexis} {mode mid last : Mode} {toks more : List Token} {s t : String}
  {as bs cs : List Char} {c : Char}

theorem run_cons : l.run mode (c :: cs) =
    ((l.run (l.step mode c).1 cs).1, (l.step mode c).2 ++ (l.run (l.step mode c).1 cs).2) := rfl

/-- Reading on from the mode that the first part leaves. -/
theorem run_append : l.run mode (as ++ bs) =
    ((l.run (l.run mode as).1 bs).1, (l.run mode as).2 ++ (l.run (l.run mode as).1 bs).2) := by
  induction as generalizing mode with
  | nil => rfl
  | cons c as ih => rw [List.cons_append, run_cons, ih, run_cons, List.append_assoc]

variable (l) in
/-- Reading a text from one mode on, the lexer finds some tokens and gets to another mode. -/
def Reads (mode : Mode) (s : String) (toks : List Token) (last : Mode) : Prop :=
  l.run mode s.toList = (last, toks)

theorem Reads.append (h : l.Reads mode s toks mid) (h' : l.Reads mid t more last) :
    l.Reads mode (s ++ t) (toks ++ more) last := by
  rw [Reads] at h h' ⊢
  rw [String.toList_append, run_append, h, h']

theorem Reads.tokens_eq (h : l.Reads .code s toks last) : l.tokens s = toks ++ last.flush := by
  rw [tokens, h]

/-- A character that belongs to no word and starts no literal ends the token in front of it. -/
theorem run_behind (hmode : mode = .code ∨ (∃ cs, mode = .word cs) ∨ ∃ raw, mode = .closed raw)
    (hname : isNameChar c = false) (hquote : c ≠ '\x22') :
    l.run mode (c :: cs) =
      ((l.run .code (c :: cs)).1, mode.flush ++ (l.run .code (c :: cs)).2) := by
  have hstep : l.step mode c = ((l.start c).1, mode.flush ++ (l.start c).2) := by
    rcases hmode with rfl | ⟨w, rfl⟩ | ⟨raw, rfl⟩
    · rfl
    · rw [step, hname]
      rfl
    · rw [step, beq_eq_false_iff_ne.2 hquote]
      rfl
  rw [run_cons, hstep, run_cons, step, List.append_assoc]

/-! ## Names and literals -/

theorem start_of_isNameChar (hc : isNameChar c = true) : l.start c = (.word [c], []) := by
  rw [start, if_pos hc]

/-- A word goes on as long as its characters do. -/
theorem run_word (h : ∀ c ∈ cs, isNameChar c = true) (seen : List Char) :
    l.run (.word seen) cs = (.word (seen ++ cs), []) := by
  induction cs generalizing seen with
  | nil => rw [List.append_nil, run]
  | cons c cs ih =>
    obtain ⟨hc, hcs⟩ := List.forall_mem_cons.1 h
    rw [run_cons, step, if_pos hc, ih hcs, List.append_assoc]
    rfl

/-- A name is one word. -/
theorem reads_name (h : IsName s) : l.Reads .code s [] (.word s.toList) := by
  obtain ⟨c, cs, hs, -⟩ := h.exists_cons
  have hchars := h.chars
  rw [hs] at hchars
  obtain ⟨hc, hcs⟩ := List.forall_mem_cons.1 hchars
  rw [Reads, hs, run_cons, step, start_of_isNameChar hc, run_word hcs]
  rfl

theorem run_text_hexDigit (raw : List Char) (n : Nat) :
    l.step (.text raw) (hexDigit n) = (.text (raw ++ [hexDigit n]), []) := by
  rw [step, beq_eq_false_iff_ne.2 (hexDigit_ne rfl n), beq_eq_false_iff_ne.2 (hexDigit_ne rfl n)]
  rfl

theorem run_escapeUnit (raw : List Char) (n : Nat) :
    l.run (.text raw) (escapeUnit n) = (.text (raw ++ escapeUnit n), []) := by
  have hescape : l.run (.text raw) (escapeUnit n) =
      l.run (.text (raw ++ ['\x5c'] ++ ['u'])) (hexDigits 4 n) := rfl
  rw [hescape]
  simp [hexDigits, run_cons, run_text_hexDigit, run, escapeUnit]

/-- Nothing in what is written for a character closes the literal. -/
theorem run_escaped (h : Escaped c cs) (raw : List Char) :
    l.run (.text raw) cs = (.text (raw ++ cs), []) := by
  cases h with
  | itself hquote hbackslash _ =>
    rw [run_cons, step, beq_eq_false_iff_ne.2 hquote, beq_eq_false_iff_ne.2 hbackslash]
    rfl
  | @short e _ _ _ =>
    rw [← List.singleton_append, ← List.append_assoc]
    rfl
  | unit _ => exact run_escapeUnit raw _
  | halves _ => rw [run_append, run_escapeUnit, run_escapeUnit, List.append_assoc]; rfl

theorem run_flatMap_escapeChar (cs raw : List Char) :
    l.run (.text raw) (cs.flatMap escapeChar) = (.text (raw ++ cs.flatMap escapeChar), []) := by
  induction cs generalizing raw with
  | nil => rw [List.flatMap_nil, List.append_nil, run]
  | cons c cs ih =>
    rw [List.flatMap_cons, run_append, run_escaped (escaped_escapeChar c), ih, List.append_assoc]
    rfl

/-- A literal is one token. -/
theorem reads_literal (s : String) :
    l.Reads .code (literal s) [] (.closed (literal s).toList) := by
  rw [Reads, toList_literal, literalChars, List.cons_append, run_cons, run_append]
  -- what is left are the quote behind the characters and the one in front
  have hstart : l.step .code '\x22' = (.text ['\x22'], []) := rfl
  rw [hstart, run_flatMap_escapeChar]
  rfl

/-! ## Comments -/

/-- A comment goes up to the end of its line. -/
theorem run_note (h : ∀ c ∈ cs, l.endsLine c = false) : l.run .note cs = (.note, []) := by
  induction cs with
  | nil => rfl
  | cons c cs ih =>
    obtain ⟨hc, hcs⟩ := List.forall_mem_cons.1 h
    rw [run_cons, step, hc, if_neg Bool.false_ne_true, ih hcs]
    rfl

end Lexis

/-! ## Lines -/

/-- Some lines as they stand in a file, each of them ended. -/
def endLines : List String → String
  | [] => ""
  | line :: rest => line ++ "\n" ++ endLines rest

theorem endLines_append (lines more : List String) :
    endLines (lines ++ more) = endLines lines ++ endLines more := by
  induction lines with
  | nil => exact (String.empty_append).symm
  | cons line rest ih => rw [List.cons_append, endLines, ih, endLines, ← String.append_assoc]

/-- A program ends with the end of its last line. -/
theorem intercalate_eq_endLines {lines : List String} (h : lines ≠ []) :
    "\n".intercalate lines ++ "\n" = endLines lines := by
  induction lines with
  | nil => exact absurd rfl h
  | cons line rest ih =>
    by_cases hrest : rest = []
    · rw [hrest, String.intercalate_singleton, endLines, endLines, String.append_empty]
    · rw [String.intercalate_cons_of_ne_nil hrest, String.append_assoc, ih hrest, endLines]

/-- A line may end here: the token is complete if there is one, and a comment ends with the line. -/
def Mode.isBreakable : Mode → Bool
  | .code | .word _ | .closed _ | .note => true
  | _ => false

/-- The tokens of a line by itself. -/
def Lexis.LineReads (l : Lexis) (line : String) (toks : List Token) : Prop :=
  ∃ last out, l.Reads .code line out last ∧ last.isBreakable = true ∧ out ++ last.flush = toks

/-- The tokens of such lines. -/
inductive Lexis.LinesRead (l : Lexis) : List String → List Token → Prop where
  | nil : LinesRead l [] []
  | cons {line : String} {lines : List String} {toks more : List Token}
      (h : l.LineReads line toks) (hrest : LinesRead l lines more) :
      LinesRead l (line :: lines) (toks ++ more)

namespace Lexis

variable {l : Lexis} {mode : Mode} {toks more : List Token} {line : String} {lines : List String}

/-- The end of a line completes a token or a comment. -/
theorem reads_newline (h : mode.isBreakable = true) :
    l.Reads mode "\n" mode.flush .code := by
  cases mode with
  | note =>
    have hstep : l.run .note ['\n'] = (if l.endsLine '\n' then .code else .note, []) := rfl
    rwa [l.endsLine_newline] at hstep
  | code | word cs | closed raw => rfl
  | text raw | escape raw | slash | long seen | longEscape => cases h

theorem LineReads.reads (h : l.LineReads line toks) : l.Reads .code (line ++ "\n") toks .code := by
  obtain ⟨last, out, hreads, hbreakable, rfl⟩ := h
  exact hreads.append (reads_newline hbreakable)

/-- Lines read by themselves are read as a text. -/
theorem LinesRead.reads (h : l.LinesRead lines toks) :
    l.Reads .code (endLines lines) toks .code := by
  induction h with
  | nil => rfl
  | cons h _ ih => exact h.reads.append ih

theorem LinesRead.append {lines' : List String} (h : l.LinesRead lines toks)
    (h' : l.LinesRead lines' more) : l.LinesRead (lines ++ lines') (toks ++ more) := by
  induction h with
  | nil => exact h'
  | cons hline _ ih =>
    rw [List.append_assoc]
    exact .cons hline ih

theorem LinesRead.singleton (h : l.LineReads line toks) : l.LinesRead [line] toks := by
  rw [← List.append_nil toks]
  exact .cons h .nil

/-- Indentation does not matter. -/
theorem LinesRead.map {f : String → String} (h : l.LinesRead lines toks)
    (hf : ∀ line toks, l.LineReads line toks → l.LineReads (f line) toks) :
    l.LinesRead (lines.map f) toks := by
  induction h with
  | nil => exact .nil
  | cons hline _ ih => exact .cons (hf _ _ hline) ih

/-- What stands in front of a line must leave the lexer in code. -/
theorem LineReads.indent {indent : String} (h : l.LineReads line toks)
    (hindent : l.Reads .code indent [] .code) : l.LineReads (indent ++ line) toks := by
  obtain ⟨last, out, hreads, hbreakable, htoks⟩ := h
  exact ⟨last, out, hindent.append hreads, hbreakable, htoks⟩

end Lexis

end AgentFlow.Skeleton
