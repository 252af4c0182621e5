import AgentFlow.Proofs.Skeleton.TypeScriptFacts

/-!
# The pieces of a TypeScript text

TypeScript takes a text apart into code, string literals and comments. The reader here does so and
gives every piece back, so the pieces make up the text (`chars_of_scan`), and no piece goes on
beyond what ends it (`isClosed_of_scan`). Both follow from what one step can do. The outline of a
text leaves of each literal and of each comment only that there is one.
-/

namespace AgentFlow.Skeleton.TypeScript

open Text

/-! ## Pieces -/

/-- A piece of a text: a character of code, or what stands between the marks around a literal,
behind the two slashes of a comment up to the end of its line, or between the marks around a
comment. -/
inductive Piece where
  | code (c : Char)
  | quoted (raw : List Char)
  | note (text : List Char)
  | comment (text : List Char)
  deriving DecidableEq

namespace Piece

/-- The piece as it stands in the text. -/
def chars : Piece → List Char
  | code c => [c]
  | quoted raw => '\x22' :: raw ++ ['\x22']
  | note text => '/' :: '/' :: text
  | comment text => '/' :: '*' :: text ++ ['*', '/']

def blank : Piece → Piece
  | code c => code c
  | quoted _ => quoted []
  | note _ => note []
  | comment _ => comment []

/-- What stands between the marks, if the piece is a comment between marks. -/
def comment? : Piece → Option (List Char)
  | comment text => some text
  | _ => none

/-- Nothing in the piece ends it. -/
def IsClosed : Piece → Prop
  | code _ => True
  | quoted raw => ∀ c ∈ raw, isLineEnd c = false
  | note text => ∀ c ∈ text, isLineEnd c = false
  | comment text => ¬ ['*', '/'] <:+: text

end Piece

/-! ## The reader -/

/-- Where the reader is, with what it has read of the piece. -/
inductive Zone where
  | code
  | slash
  | note (text : List Char)
  | comment (text : List Char)
  | quoted (raw : List Char)
  /-- Behind a backslash in a literal. -/
  | escape (raw : List Char)
  deriving DecidableEq

namespace Zone

/-- Where the reader gets with a character, and the pieces that are complete then. It has no rules
for other quotes, for slashes that start no comment, and for lines that end in a literal. -/
def step : Zone → Char → Option (Zone × List Piece)
  | code, c =>
    if c = '\x22' then some (quoted [], [])
    else if c = '/' then some (slash, [])
    else if c = '\x27' ∨ c = '\x60' then none
    else some (code, [.code c])
  | slash, c =>
    if c = '/' then some (note [], [])
    else if c = '*' then some (comment [], [])
    else none
  | note text, c =>
    if isLineEnd c then some (code, [.note text, .code c]) else some (note (text ++ [c]), [])
  | comment text, c =>
    if c = '/' ∧ text.getLast? = some '*' then some (code, [.comment text.dropLast])
    else some (comment (text ++ [c]), [])
  | quoted raw, c =>
    if c = '\x22' then some (code, [.quoted raw])
    else if c = '\x5c' then some (escape raw, [])
    else if isLineEnd c then none
    else some (quoted (raw ++ [c]), [])
  | escape raw, c => if isLineEnd c then none else some (quoted (raw ++ ['\x5c', c]), [])

/-- Where the reader gets with some characters, and the pieces that are complete then. -/
def run : Zone → List Char → Option (Zone × List Piece)
  | z, [] => some (z, [])
  | z, c :: cs => do
    let (next, out) ← z.step c
    let (last, more) ← run next cs
    return (last, out ++ more)

/-- What the reader has read of the piece that it is in. -/
def pending : Zone → List Char
  | code => []
  | slash => ['/']
  | note text => '/' :: '/' :: text
  | comment text => '/' :: '*' :: text
  | quoted raw => '\x22' :: raw
  | escape raw => '\x22' :: raw ++ ['\x5c']

end Zone

/-- The pieces of a text, if none is open at its end. -/
def scan (s : String) : Option (List Piece) :=
  match Zone.run .code s.toList with
  | some (.code, pieces) => some pieces
  | _ => none

/-- What a text is without the texts in it: its code, and where the literals and comments are. -/
def outline (s : String) : Option (List Piece) := (scan s).map (·.map Piece.blank)

/-! ## Reading piece by piece -/

section

variable {z mid last : Zone} {c : Char} {as bs cs : List Char} {out more pieces : List Piece}
  {s t : String}

/-- A run takes a step and goes on from there. -/
theorem Zone.run_cons_eq_some_iff : z.run (c :: cs) = some (last, pieces) ↔
    ∃ next out more, z.step c = some (next, out) ∧ next.run cs = some (last, more) ∧
      out ++ more = pieces := by
  simp only [run, Option.bind_eq_bind, Option.bind_eq_some_iff, Option.pure_def, Option.some.injEq,
    Prod.mk.injEq, Prod.exists]
  constructor
  · rintro ⟨next, out, hstep, last', more, hrun, rfl, rfl⟩
    exact ⟨next, out, more, hstep, hrun, rfl⟩
  · rintro ⟨next, out, more, hstep, hrun, rfl⟩
    exact ⟨next, out, hstep, last, more, hrun, rfl, rfl⟩

/-- Runs are put one after the other. -/
theorem Zone.run_append (h : z.run as = some (mid, out)) (h' : mid.run bs = some (last, more)) :
    z.run (as ++ bs) = some (last, out ++ more) := by
  induction as generalizing z out with
  | nil =>
    cases h
    exact h'
  | cons c as ih =>
    obtain ⟨next, out₁, out₂, hstep, hrun, rfl⟩ := run_cons_eq_some_iff.1 h
    exact run_cons_eq_some_iff.2 ⟨next, out₁, _, hstep, ih hrun, (List.append_assoc ..).symm⟩

/-- Reading a text, the reader gets from one zone to another and completes some pieces. -/
def Scans (z : Zone) (s : String) (out : List Piece) (last : Zone) : Prop :=
  z.run s.toList = some (last, out)

theorem Scans.append (h : Scans z s out mid) (h' : Scans mid t more last) :
    Scans z (s ++ t) (out ++ more) last := by
  rw [Scans, String.toList_append]
  exact Zone.run_append h h'

theorem scan_eq_some_iff : scan s = some pieces ↔ Scans .code s pieces .code := by
  rw [scan, Scans]
  split
  · next found h => simp [h]
  · next h =>
    refine ⟨fun h' => (nomatch h'), fun h' => absurd h' ?_⟩
    exact h pieces

/-! ## What one step can do

`Zone.step` is a chain of tests for each zone. What follows about a step goes by the cases of
`Zone.Step` and does not look at the tests again. -/

/-- What a character can do in each zone. -/
inductive Zone.Step : Zone → Char → Zone → List Piece → Prop where
  | code (c : Char) : Step .code c .code [.code c]
  | openLiteral : Step .code '\x22' (.quoted []) []
  | slash : Step .code '/' .slash []
  | openNote : Step .slash '/' (.note []) []
  | openComment : Step .slash '*' (.comment []) []
  | note {text : List Char} {c : Char} (hc : isLineEnd c = false) :
      Step (.note text) c (.note (text ++ [c])) []
  | endNote {text : List Char} {c : Char} : Step (.note text) c .code [.note text, .code c]
  | comment {text : List Char} {c : Char} (hc : ¬ (c = '/' ∧ text.getLast? = some '*')) :
      Step (.comment text) c (.comment (text ++ [c])) []
  | closeComment {text : List Char} : Step (.comment (text ++ ['*'])) '/' .code [.comment text]
  | quoted {raw : List Char} {c : Char} (hc : isLineEnd c = false) :
      Step (.quoted raw) c (.quoted (raw ++ [c])) []
  | closeLiteral {raw : List Char} : Step (.quoted raw) '\x22' .code [.quoted raw]
  | backslash {raw : List Char} : Step (.quoted raw) '\x5c' (.escape raw) []
  | escaped {raw : List Char} {c : Char} (hc : isLineEnd c = false) :
      Step (.escape raw) c (.quoted (raw ++ ['\x5c', c])) []

/-- The inversion of `Zone.step`: every step is one of these. -/
theorem Zone.Step.of_step {next : Zone} (h : z.step c = some (next, out)) :
    Zone.Step z c next out := by
  cases z with
  | code =>
    simp only [Zone.step] at h
    split at h
    · next hc => cases h; exact hc ▸ .openLiteral
    split at h
    · next hc => cases h; exact hc ▸ .slash
    split at h
    · cases h
    · cases h; exact .code c
  | slash =>
    simp only [Zone.step] at h
    split at h
    · next hc => cases h; exact hc ▸ .openNote
    split at h
    · next hc => cases h; exact hc ▸ .openComment
    · cases h
  | note text =>
    simp only [Zone.step] at h
    split at h
    · cases h; exact .endNote
    · next hc => cases h; exact .note (Bool.eq_false_of_not_eq_true hc)
  | comment text =>
    simp only [Zone.step] at h
    split at h
    · next hc =>
      -- The text ends in the star that closes the comment.
      obtain ⟨before, rfl⟩ := List.getLast?_eq_some_iff.1 hc.2
      rw [List.dropLast_concat] at h
      cases h
      exact hc.1 ▸ .closeComment
    · next hc => cases h; exact .comment hc
  | quoted raw =>
    simp only [Zone.step] at h
    split at h
    · next hc => cases h; exact hc ▸ .closeLiteral
    split at h
    · next hc => cases h; exact hc ▸ .backslash
    split at h
    · cases h
    · next hc => cases h; exact .quoted (Bool.eq_false_of_not_eq_true hc)
  | escape raw =>
    simp only [Zone.step] at h
    split at h
    · cases h
    · next hc => cases h; exact .escaped (Bool.eq_false_of_not_eq_true hc)

/-! ## The pieces make up the text -/

/-- A step loses nothing: what was pending and the character are in the pieces or pending again. -/
theorem Zone.Step.pending_eq {next : Zone} (h : Zone.Step z c next out) :
    z.pending ++ [c] = out.flatMap Piece.chars ++ next.pending := by
  cases h <;> simp [pending, Piece.chars]

/-- A run loses nothing either. -/
theorem Zone.pending_run (h : z.run cs = some (last, out)) :
    z.pending ++ cs = out.flatMap Piece.chars ++ last.pending := by
  induction cs generalizing z out with
  | nil =>
    cases h
    exact List.append_nil _
  | cons c cs ih =>
    obtain ⟨next, out, more, hstep, hrun, rfl⟩ := run_cons_eq_some_iff.1 h
    rw [List.append_cons, (Step.of_step hstep).pending_eq, List.append_assoc, ih hrun,
      List.flatMap_append, List.append_assoc]

/-- The pieces of a text make it up. -/
theorem chars_of_scan (h : scan s = some pieces) : pieces.flatMap Piece.chars = s.toList := by
  simpa [Zone.pending] using (Zone.pending_run (scan_eq_some_iff.1 h)).symm

/-! ## No piece goes on beyond its end -/

/-- Nothing that is read of a piece ends it. -/
def Zone.IsOpen : Zone → Prop
  | code | slash => True
  | note text | quoted text | escape text => ∀ c ∈ text, isLineEnd c = false
  | comment text => text.IsChain fun c d => ¬ (c = '*' ∧ d = '/')

theorem not_infix_of_isChain (h : cs.IsChain fun c d => ¬ (c = '*' ∧ d = '/')) :
    ¬ ['*', '/'] <:+: cs := by
  intro hinfix
  have hpair : ['*', '/'].IsChain fun c d => ¬ (c = '*' ∧ d = '/') := List.IsChain.infix h hinfix
  exact (List.isChain_cons_cons.1 hpair).1 ⟨rfl, rfl⟩

/-- A slash would end a comment only behind a star. -/
theorem isChain_concat {text : List Char} (h : text.IsChain fun c d => ¬ (c = '*' ∧ d = '/'))
    (hc : ¬ (c = '/' ∧ text.getLast? = some '*')) :
    (text ++ [c]).IsChain fun c d => ¬ (c = '*' ∧ d = '/') := by
  refine List.isChain_append.2 ⟨h, .singleton c, ?_⟩
  rintro d hd e he ⟨rfl, rfl⟩
  cases he
  exact hc ⟨rfl, hd⟩

/-- A step ends no piece too late, and leaves nothing in the next one that would have ended it. -/
theorem Zone.Step.isOpen {next : Zone} (h : Zone.Step z c next out) (hz : z.IsOpen) :
    (∀ piece ∈ out, piece.IsClosed) ∧ next.IsOpen := by
  cases h with
  | code | openLiteral | slash | openNote | openComment => simp [IsOpen, Piece.IsClosed]
  | note hc => exact ⟨by simp, List.forall_mem_append.2 ⟨hz, List.forall_mem_singleton.2 hc⟩⟩
  | endNote => exact ⟨List.forall_mem_cons.2 ⟨hz, by simp [Piece.IsClosed]⟩, trivial⟩
  | comment hc => exact ⟨by simp, isChain_concat hz hc⟩
  | @closeComment text =>
    -- the star belongs to the end mark
    have hshort : text.IsChain _ := List.IsChain.prefix hz (List.prefix_append text ['*'])
    exact ⟨List.forall_mem_singleton.2 (not_infix_of_isChain hshort), trivial⟩
  | quoted hc => exact ⟨by simp, List.forall_mem_append.2 ⟨hz, List.forall_mem_singleton.2 hc⟩⟩
  | closeLiteral => exact ⟨List.forall_mem_singleton.2 hz, trivial⟩
  | backslash => exact ⟨by simp, hz⟩
  | escaped hc =>
    have hpair : ∀ d ∈ ['\x5c', c], isLineEnd d = false :=
      List.forall_mem_cons.2 ⟨rfl, List.forall_mem_singleton.2 hc⟩
    exact ⟨by simp, List.forall_mem_append.2 ⟨hz, hpair⟩⟩

/-- All pieces of a run are closed, as every step keeps the zone open. -/
theorem Zone.IsOpen.run (hz : z.IsOpen) (h : z.run cs = some (last, out)) :
    ∀ piece ∈ out, piece.IsClosed := by
  induction cs generalizing z out with
  | nil =>
    cases h
    simp
  | cons c cs ih =>
    obtain ⟨next, out, more, hstep, hrun, rfl⟩ := run_cons_eq_some_iff.1 h
    obtain ⟨hout, hnext⟩ := (Step.of_step hstep).isOpen hz
    exact List.forall_mem_append.2 ⟨hout, ih hnext hrun⟩

/-- Nothing in a piece of a text ends the piece. -/
theorem isClosed_of_scan (h : scan s = some pieces) : ∀ piece ∈ pieces, piece.IsClosed :=
  have hopen : Zone.code.IsOpen := trivial
  hopen.run (scan_eq_some_iff.1 h)

example : scan "/* a **/ f(\"/*\") // b\n" = some
    [.comment " a *".toList, .code ' ', .code 'f', .code '(', .quoted "/*".toList, .code ')',
      .code ' ', .note " b".toList, .code '\n'] := by decide +kernel

end

/-! ## How code, literals and comments are read -/

variable {s x : String}

/-- Characters of code that start nothing. -/
def isPlainChar (c : Char) : Bool := c != '\x22' && c != '/' && c != '\x27' && c != '\x60'

/-- Code is read character by character. -/
theorem run_plain {cs : List Char} (h : cs.all isPlainChar = true) :
    Zone.code.run cs = some (.code, cs.map .code) := by
  induction cs with
  | nil => rfl
  | cons c cs ih =>
    rw [List.all_cons, Bool.and_eq_true] at h
    have hstep : Zone.code.step c = some (.code, [.code c]) := by
      have hc := h.1
      simp only [isPlainChar, Bool.and_eq_true, bne_iff_ne, ne_eq] at hc
      simp [Zone.step, hc]
    exact Zone.run_cons_eq_some_iff.2 ⟨_, _, _, hstep, ih h.2, rfl⟩

/-! ### Literals -/

/-- The ends of lines are no printable characters. -/
theorem isLineEnd_of_isPrintableAscii {c : Char} (h : isPrintableAscii c = true) :
    isLineEnd c = false := by
  cases hend : isLineEnd c with
  | false => rfl
  | true =>
    simp only [isLineEnd, Bool.or_eq_true, beq_iff_eq] at hend
    -- none of the four is printable
    rcases hend with ((rfl | rfl) | rfl) | rfl <;> cases h

theorem step_quoted {c : Char} (raw : List Char) (hc : isPrintableAscii c = true)
    (hquote : c ≠ '\x22') (hbackslash : c ≠ '\x5c') :
    (Zone.quoted raw).step c = some (.quoted (raw ++ [c]), []) := by
  rw [Zone.step, if_neg hquote, if_neg hbackslash, isLineEnd_of_isPrintableAscii hc,
    if_neg Bool.false_ne_true]

theorem step_hexDigit (raw : List Char) (n : Nat) :
    (Zone.quoted raw).step (hexDigit n) = some (.quoted (raw ++ [hexDigit n]), []) :=
  step_quoted raw (isPrintableAscii_hexDigit n) (hexDigit_ne rfl n) (hexDigit_ne rfl n)

/-- Behind a backslash every character of ASCII belongs to the literal. -/
theorem run_escape {c : Char} (raw : List Char) (hc : isPrintableAscii c = true) :
    (Zone.quoted raw).run ['\x5c', c] = some (.quoted (raw ++ ['\x5c', c]), []) := by
  have hbackslash : (Zone.quoted raw).step '\x5c' = some (.escape raw, []) := rfl
  have hstep : (Zone.escape raw).step c = some (.quoted (raw ++ ['\x5c', c]), []) := by
    rw [Zone.step, isLineEnd_of_isPrintableAscii hc, if_neg Bool.false_ne_true]
  exact Zone.run_cons_eq_some_iff.2 ⟨_, _, _, hbackslash,
    Zone.run_cons_eq_some_iff.2 ⟨_, _, _, hstep, rfl, rfl⟩, rfl⟩

theorem run_escapeUnit (raw : List Char) (n : Nat) :
    (Zone.quoted raw).run (escapeUnit n) = some (.quoted (raw ++ escapeUnit n), []) := by
  have hstart : (Zone.quoted raw).run ['\x5c', 'u'] =
      some (.quoted (raw ++ ['\x5c', 'u']), []) := run_escape raw rfl
  have hdigits : ∀ seen : List Char, (Zone.quoted seen).run (hexDigits 4 n) =
      some (.quoted (seen ++ hexDigits 4 n), []) := by
    intro seen
    simp [hexDigits, Zone.run, step_hexDigit]
  simpa [escapeUnit] using Zone.run_append hstart (hdigits _)

/-- However a character is written in a literal, the reader stays in the literal. -/
theorem run_escaped {c : Char} {es : List Char} (h : Escaped c es) (raw : List Char) :
    (Zone.quoted raw).run es = some (.quoted (raw ++ es), []) := by
  cases h with
  | itself hquote hbackslash hprintable =>
    have hstep := step_quoted raw hprintable hquote hbackslash
    exact Zone.run_cons_eq_some_iff.2 ⟨_, _, _, hstep, rfl, rfl⟩
  | short hprintable _ _ => exact run_escape raw hprintable
  | unit _ => exact run_escapeUnit raw _
  | halves _ =>
    rw [← List.append_assoc]
    exact Zone.run_append (run_escapeUnit raw _) (run_escapeUnit _ _)

theorem run_flatMap_escapeChar (cs raw : List Char) :
    (Zone.quoted raw).run (cs.flatMap escapeChar) =
      some (.quoted (raw ++ cs.flatMap escapeChar), []) := by
  induction cs generalizing raw with
  | nil => rw [List.flatMap_nil, List.append_nil, Zone.run]
  | cons c cs ih =>
    rw [List.flatMap_cons, ← List.append_assoc]
    exact Zone.run_append (run_escaped (escaped_escapeChar c) raw) (ih _)

/-- A literal is one piece. -/
theorem scans_literal (s : String) :
    Scans .code (literal s) [.quoted (s.toList.flatMap escapeChar)] .code := by
  have hopen : Zone.code.run ['\x22'] = some (.quoted [], []) := rfl
  have hclose : ∀ raw, (Zone.quoted raw).run ['\x22'] = some (.code, [.quoted raw]) :=
    fun _ => rfl
  -- between the quotes
  have htext := run_flatMap_escapeChar s.toList []
  rw [Scans, toList_literal]
  exact Zone.run_append (Zone.run_append hopen htext) (hclose _)

/-! ### Comments -/

/-- A comment goes on as long as its characters do not end it. -/
theorem run_comment {cs : List Char} (seen : List Char)
    (h : (seen ++ cs).IsChain fun c d => ¬ (c = '*' ∧ d = '/')) :
    (Zone.comment seen).run cs = some (.comment (seen ++ cs), []) := by
  induction cs generalizing seen with
  | nil => rw [List.append_nil]; rfl
  | cons c cs ih =>
    -- a star before the slash would stand in the chain
    have hopen : ¬ (c = '/' ∧ seen.getLast? = some '*') := by
      rintro ⟨rfl, hlast⟩
      exact (List.isChain_append.1 h).2.2 '*' hlast '/' rfl ⟨rfl, rfl⟩
    have hstep : (Zone.comment seen).step c = some (.comment (seen ++ [c]), []) := by
      rw [Zone.step, if_neg hopen]
    rw [List.append_cons] at h ⊢
    exact Zone.run_cons_eq_some_iff.2 ⟨_, _, _, hstep, ih _ h, rfl⟩

/-- A comment whose text stays open is one piece. -/
theorem scans_comment (h : KeepsOpen s) :
    Scans .code ("/*" ++ s ++ "*/") [.comment s.toList] .code := by
  have hopen : Scans .code "/*" [] (.comment []) := rfl
  have htext : Scans (.comment []) s [] (.comment s.toList) := run_comment [] h
  have hclose : Scans (.comment s.toList) "*/" [.comment s.toList] .code := by
    -- the star of the end mark is read as part of the text, until the slash follows
    have hstar : (Zone.comment s.toList).run ['*'] = some (.comment (s.toList ++ ['*']), []) :=
      run_comment s.toList ((List.isChain_append.2 ⟨h, .singleton _, by simp⟩))
    have hslash : (Zone.comment (s.toList ++ ['*'])).run ['/'] =
        some (.code, [.comment s.toList]) := by
      simp [Zone.run, Zone.step]
    exact Zone.run_append hstar hslash
  exact (hopen.append htext).append hclose

/-- Flat texts have no blanks but spaces, and the ends of lines are other blanks. -/
theorem isLineEnd_of_isFlat {c : Char} (h : IsFlat s) (hc : c ∈ s.toList) :
    isLineEnd c = false := by
  cases hend : isLineEnd c with
  | false => rfl
  | true =>
    obtain ⟨hspace, hblank⟩ := vocabulary.lexis.blank_of_endsLine c hend
    rcases h c hc with rfl | hnot
    · exact absurd rfl hspace
    · rw [hblank] at hnot
      cases hnot

theorem run_note {cs : List Char} (seen : List Char) (h : ∀ c ∈ cs, isLineEnd c = false) :
    (Zone.note seen).run cs = some (.note (seen ++ cs), []) := by
  induction cs generalizing seen with
  | nil => rw [List.append_nil]; rfl
  | cons c cs ih =>
    obtain ⟨hc, hcs⟩ := List.forall_mem_cons.1 h
    have hstep : (Zone.note seen).step c = some (.note (seen ++ [c]), []) := by
      rw [Zone.step, hc, if_neg Bool.false_ne_true]
    rw [List.append_cons]
    exact Zone.run_cons_eq_some_iff.2 ⟨_, _, _, hstep, ih _ hcs, rfl⟩

/-- A note is one piece, and the end of its line another. -/
theorem scans_note (h : IsFlat x) :
    Scans .code ("// " ++ x ++ "\n") [.note (' ' :: x.toList), .code '\n'] .code := by
  have hopen : Scans .code "// " [] (.note [' ']) := rfl
  have htext : Scans (.note [' ']) x [] (.note (' ' :: x.toList)) :=
    run_note [' '] fun c => isLineEnd_of_isFlat h
  have hend : Scans (.note (' ' :: x.toList)) "\n" [.note (' ' :: x.toList), .code '\n'] .code :=
    rfl
  exact (hopen.append htext).append hend

end AgentFlow.Skeleton.TypeScript
