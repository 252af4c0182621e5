import AgentFlow.Proofs.Skeleton.Pieces
import AgentFlow.Proofs.Skeleton.Readings

/-!
# Texts stay in their comments and literals

What a graph says is in the comments and in the literals of its TypeScript program, and nowhere
else. Every section has the outline of the same section of a plan without texts, and its comments
are the ones that are written there, up to their ends (`confined_of_plan`).
-/

namespace AgentFlow

/-! ## Plans without texts -/

def PlannedNode.bare (q : PlannedNode) : PlannedNode where
  key := ""
  node := { id := "", tools := q.node.tools.map fun _ => "" }

def Branch.bare (b : Branch) : Branch where
  source := ""
  routes := b.routes.map fun _ => ⟨"", ""⟩
  renamed := b.renamed.map fun _ => ""

/-- The plan without its texts: only how many there are of everything is left. -/
def Plan.bare (p : Plan) : Plan where
  nodes := p.nodes.map PlannedNode.bare
  entry := p.entry.map fun _ => ""
  entryIsFallback := p.entryIsFallback
  edges := p.edges.map fun _ => ("", "")
  branches := p.branches.map Branch.bare
  sinks := p.sinks.map fun _ => ""
  unreachable := p.unreachable.map fun _ => ""

namespace Skeleton.TypeScript

open Text

/-! ## Texts with the same outline -/

/-- Two texts are read to their ends, are alike apart from the texts in them, and have no comments
between marks. -/
def Alike (s t : String) : Prop :=
  ∃ ps qs, Scans .code s ps .code ∧ Scans .code t qs .code ∧
    ps.map Piece.blank = qs.map Piece.blank ∧ ps.filterMap Piece.comment? = []

/-- Two lines are alike; both may end in a comment. -/
inductive LineAlike : String → String → Prop where
  | code {s t : String} (h : Alike s t) : LineAlike s t
  | note {s t x y : String} (h : Alike s t) (hx : IsFlat x) (hy : IsFlat y) :
      LineAlike (s ++ "// " ++ x) (t ++ "// " ++ y)

/-- Some lines are alike one by one. -/
abbrev LinesAlike : List String → List String → Prop := List.Forall₂ LineAlike

variable {s t x y name : String} {lines lines' more more' : List String}

/-- Both texts are read to their ends, so they can be read one after the other. -/
theorem Alike.append {s' t' : String} (h : Alike s t) (h' : Alike s' t') :
    Alike (s ++ s') (t ++ t') := by
  obtain ⟨ps, qs, hs, ht, heq, hnone⟩ := h
  obtain ⟨ps', qs', hs', ht', heq', hnone'⟩ := h'
  refine ⟨_, _, hs.append hs', ht.append ht', ?_, ?_⟩
  · rw [List.map_append, List.map_append, heq, heq']
  · rw [List.filterMap_append, hnone, hnone', List.append_nil]

/-- Plain text is its own outline. -/
theorem alike_plain (h : s.toList.all isPlainChar = true) : Alike s s :=
  ⟨_, _, run_plain h, run_plain h, rfl, by simp [Piece.comment?, List.filterMap_map]⟩

/-- A name is plain text. -/
theorem alike_name (h : IsName s) : Alike s s := by
  refine alike_plain (List.all_eq_true.2 fun c hc => ?_)
  exact isNameChar_forall (P := fun c => isPlainChar c = true) (by decide +kernel) (h.chars c hc)

/-- Whatever a literal says, its outline is the same. -/
theorem alike_literal (s t : String) : Alike (literal s) (literal t) :=
  ⟨_, _, scans_literal s, scans_literal t, rfl, rfl⟩

theorem Alike.plain (h : Alike s t) (hx : x.toList.all isPlainChar = true) :
    Alike (s ++ x) (t ++ x) := h.append (alike_plain hx)

theorem alike_intercalate {sep : String} {parts parts' : List String}
    (hsep : sep.toList.all isPlainChar = true) (h : List.Forall₂ Alike parts parts') :
    Alike (sep.intercalate parts) (sep.intercalate parts') := by
  induction h with
  | nil => exact alike_plain rfl
  | @cons part part' rest rest' hpart hrest ih =>
    cases hrest with
    | nil => simpa using hpart
    | cons hnext hothers =>
      rw [String.intercalate_cons_of_ne_nil (List.cons_ne_nil _ _),
        String.intercalate_cons_of_ne_nil (List.cons_ne_nil _ _)]
      exact (hpart.plain hsep).append ih

theorem forall₂_literals (texts : List String) :
    List.Forall₂ Alike (texts.map literal) ((texts.map fun _ => "").map literal) := by
  rw [List.map_map]
  exact forall₂_map_map fun text _ => alike_literal text ""

/-! ## Lines that are alike -/

/-- A comment is closed by the end of its line. -/
theorem LineAlike.ended (h : LineAlike s t) : Alike (s ++ "\n") (t ++ "\n") := by
  cases h with
  | code h => exact h.plain rfl
  | note h hx hy =>
    have hnotes : Alike ("// " ++ _ ++ "\n") ("// " ++ _ ++ "\n") :=
      ⟨_, _, scans_note hx, scans_note hy, rfl, rfl⟩
    simpa only [String.append_assoc] using h.append hnotes

/-- Code may stand in front of a line, not behind it. -/
theorem LineAlike.behind (h : LineAlike s t) (h' : Alike x y) : LineAlike (x ++ s) (y ++ t) := by
  cases h with
  | code h => exact .code (h'.append h)
  | note h hx hy => simpa only [String.append_assoc] using LineAlike.note (h'.append h) hx hy

theorem LineAlike.semicolon (h : LineAlike s t) : LineAlike (s ++ ";") (t ++ ";") := by
  have hflat : IsFlat ";" := isFlat_of_all rfl
  cases h with
  | code h => exact .code (h.plain rfl)
  | note h hx hy =>
    -- The semicolon becomes part of the comment.
    simpa only [String.append_assoc] using LineAlike.note h (hx.append hflat) (hy.append hflat)

theorem lineAlike_note (hx : IsFlat x) (hy : IsFlat y) : LineAlike ("// " ++ x) ("// " ++ y) := by
  have hempty : Alike "" "" := alike_plain rfl
  simpa using LineAlike.note hempty hx hy

theorem lineAlike_note_self (x : String) (hs : s = "// " ++ x) (hx : IsFlat x) : LineAlike s s :=
  hs ▸ lineAlike_note hx hx

theorem lineAlike_plain (h : s.toList.all isPlainChar = true) : LineAlike s s :=
  .code (alike_plain h)

/-- Line by line alike is alike as a text. -/
theorem LinesAlike.alike (h : LinesAlike lines lines') :
    Alike (endLines lines) (endLines lines') := by
  induction h with
  | nil => exact alike_plain rfl
  | cons hline _ ih => exact hline.ended.append ih

theorem LinesAlike.append (h : LinesAlike lines lines') (h' : LinesAlike more more') :
    LinesAlike (lines ++ more) (lines' ++ more') := List.rel_append h h'

theorem LinesAlike.indent (h : LinesAlike lines lines') :
    LinesAlike (lines.map (indent ++ ·)) (lines'.map (indent ++ ·)) :=
  List.rel_map (fun _ _ hline => hline.behind (alike_plain rfl)) h

/-- The semicolon goes to the last line on both sides. -/
theorem LinesAlike.terminated (h : LinesAlike lines lines') :
    LinesAlike (terminated lines) (terminated lines') := by
  induction h with
  | nil => exact .nil
  | cons hline hrest ih =>
    cases hrest with
    | nil => exact .cons hline.semicolon .nil
    | cons hnext hothers => exact .cons hline ih

/-! ## Sections -/

/-- What stands between the marks of a comment over several lines. -/
def blockText (lines : List String) : String := "*\n" ++ endLines lines ++ " "

/-- Some lines are made up of code, literals and comments, none of which goes on beyond its end. The
comments between marks are the given one, if any, and apart from the texts the lines are like the
bare ones. -/
structure Confined (comment : Option String) (lines bare : List String) : Prop where
  pieces : ∃ pieces, scan (endLines lines) = some pieces ∧
    pieces.flatMap Piece.chars = (endLines lines).toList ∧ (∀ piece ∈ pieces, piece.IsClosed) ∧
    pieces.filterMap Piece.comment? = comment.toList.map String.toList
  outline : outline (endLines lines) = outline (endLines bare)

theorem outline_eq_of_scans {ps qs : List Piece} (hs : Scans .code s ps .code)
    (ht : Scans .code t qs .code) (heq : ps.map Piece.blank = qs.map Piece.blank) :
    outline s = outline t := by
  rw [outline, outline, scan_eq_some_iff.2 hs, scan_eq_some_iff.2 ht, Option.map_some,
    Option.map_some, heq]

/-- Lines that are alike have no comment between marks. -/
theorem LinesAlike.confined (h : LinesAlike lines lines') : Confined none lines lines' := by
  obtain ⟨ps, qs, hs, ht, heq, hnone⟩ := h.alike
  have hscan := scan_eq_some_iff.2 hs
  exact ⟨⟨ps, hscan, chars_of_scan hscan, isClosed_of_scan hscan, hnone⟩,
    outline_eq_of_scans hs ht heq⟩

/-- A comment in front that stays open up to its end mark is read as one piece. -/
theorem confined_of_comment {a b : String} (ha : KeepsOpen a) (hb : KeepsOpen b) (h : Alike s t)
    (hlines : endLines lines = "/*" ++ a ++ "*/" ++ s)
    (hlines' : endLines lines' = "/*" ++ b ++ "*/" ++ t) : Confined (some a) lines lines' := by
  obtain ⟨ps, qs, hs, ht, heq, hnone⟩ := h
  have hall := (scans_comment ha).append hs
  have hall' := (scans_comment hb).append ht
  rw [← hlines] at hall
  rw [← hlines'] at hall'
  have hscan := scan_eq_some_iff.2 hall
  refine ⟨⟨_, hscan, chars_of_scan hscan, isClosed_of_scan hscan, ?_⟩,
    outline_eq_of_scans hall hall' ?_⟩
  · rw [List.filterMap_append, hnone]
    rfl
  · rw [List.map_append, List.map_append, heq]
    rfl

/-- What is between the marks stays open line by line. -/
theorem keepsOpen_blockText (h : ∀ line ∈ lines, KeepsOpen line) : KeepsOpen (blockText lines) := by
  have hstart : HasNoSlash "*\n" := by decide
  have hend : HasNoSlash " " := by decide
  have hnewline : HasNoSlash "\n" := by decide
  have hlines : KeepsOpen (endLines lines) := by
    induction lines with
    | nil => exact .nil
    | cons line rest ih =>
      obtain ⟨hline, hrest⟩ := List.forall_mem_cons.1 h
      exact (hline.append hnewline.keepsOpen (.inr (by decide))).append (ih hrest) (.inl (by simp))
  exact (hstart.keepsOpen.append hlines (.inl (by decide))).append hend.keepsOpen
    (.inr (by decide))

/-- The marks are the starts and the ends of two lines. -/
theorem endLines_blockComment (lines more : List String) :
    endLines (["/**"] ++ lines ++ [" */"] ++ more) =
      "/*" ++ blockText lines ++ "*/" ++ ("\n" ++ endLines more) := by
  have hopen : "/**" ++ "\n" = "/*" ++ "*\n" := rfl
  have hclose : " */" = " " ++ "*/" := rfl
  simp only [endLines_append, endLines, blockText, hclose, String.append_empty]
  rw [hopen]
  simp only [String.append_assoc]

theorem confined_blockComment {inner inner' : List String} (h : ∀ line ∈ inner, KeepsOpen line)
    (h' : ∀ line ∈ inner', KeepsOpen line) (hmore : LinesAlike more more') :
    Confined (some (blockText inner)) (["/**"] ++ inner ++ [" */"] ++ more)
      (["/**"] ++ inner' ++ [" */"] ++ more') :=
  confined_of_comment (keepsOpen_blockText h) (keepsOpen_blockText h')
    ((alike_plain rfl).append hmore.alike) (endLines_blockComment inner more)
    (endLines_blockComment inner' more')

/-! ### The header and the state -/

theorem hasNoSlash_name (h : IsName s) : HasNoSlash s := hasNoSlash_of_isNameChar h.chars

theorem confined_header {p : Plan} (hentry : HasNoSlash (entryName p)) (project : String) :
    Confined (some (blockText (headerLines p project))) (header p project) (header p.bare "") := by
  have hbare : HasNoSlash (entryName p.bare) := by
    have hname : entryName p.bare = (p.entry.map fun _ => "").getD "none" := rfl
    have hnone : HasNoSlash "none" := by decide
    have hempty : HasNoSlash "" := by decide
    rw [hname]
    cases p.entry with
    | none => exact hnone
    | some key => exact hempty
  have himport : Alike ("import \x7b Annotation, END, START, StateGraph \x7d from " ++
      literal "@langchain/langgraph" ++ ";")
      ("import \x7b Annotation, END, START, StateGraph \x7d from " ++
        literal "@langchain/langgraph" ++ ";") :=
    ((alike_plain rfl).append (alike_literal _ _)).plain rfl
  rw [header_eq, header_eq]
  exact confined_blockComment (keepsOpen_headerLines hentry project)
    (keepsOpen_headerLines hbare "") (.cons (lineAlike_plain rfl) (.cons (.code himport) .nil))

theorem linesAlike_state : LinesAlike state state := by
  have hplain : ∀ line ∈ state.take 5 ++ state.drop 6,
      line.toList.all isPlainChar = true := by decide
  have hnote : LineAlike (indent ++ "// route key chosen by the last branching node")
      (indent ++ "// route key chosen by the last branching node") :=
    (lineAlike_note_self "route key chosen by the last branching node" rfl
      (isFlat_of_all rfl)).behind (alike_plain rfl)
  obtain ⟨hfirst, hlast⟩ := List.forall_mem_append.1 hplain
  have hsame : ∀ {lines : List String}, (∀ line ∈ lines, line.toList.all isPlainChar = true) →
      LinesAlike lines lines :=
    fun h => List.forall₂_same.2 fun line hline => lineAlike_plain (h line hline)
  exact (LinesAlike.append (hsame hfirst) (.cons hnote .nil)).append (hsame hlast)

/-! ### Functions -/

theorem isFlat_title_bare (q : PlannedNode) : IsFlat (title q.bare) := by
  rw [title]
  split
  · exact isFlat_of_all rfl
  · exact eq_space_or_of_mem_oneLine

theorem forall₂_routeLiterals (b : Branch) :
    List.Forall₂ Alike (routeLiterals b) (routeLiterals b.bare) := by
  rw [routeLiterals, routeLiterals, Branch.bare, List.map_map]
  exact forall₂_map_map fun r _ => alike_literal r.key ""

theorem alike_firstRoute (b : Branch) : Alike (firstRoute b) (firstRoute b.bare) :=
  alike_literal _ _

theorem alike_listLiteral (texts : List String) :
    Alike (listLiteral texts) (listLiteral (texts.map fun _ => "")) :=
  ((alike_plain rfl).append (alike_intercalate rfl (forall₂_literals texts))).plain rfl

/-- Routes are named in a literal and in a comment. -/
theorem linesAlike_result (branch : Option Branch) :
    LinesAlike (result branch) (result (branch.map Branch.bare)) := by
  cases branch with
  | none => exact .cons (lineAlike_plain rfl) .nil
  | some b =>
    have hnote : LineAlike (indent ++ "// " ++ returnNote b)
        (indent ++ "// " ++ returnNote b.bare) :=
      .note (alike_plain rfl) (isFlat_returnNote b) (isFlat_returnNote b.bare)
    have hreturn : Alike (indent ++ "return \x7b route: " ++ firstRoute b ++ " \x7d;")
        (indent ++ "return \x7b route: " ++ firstRoute b.bare ++ " \x7d;") :=
      ((alike_plain rfl).append (alike_firstRoute b)).plain rfl
    exact .cons hnote (.cons (.code hreturn) .nil)

/-- The comment of a node has its title and its description, and the tools are literals. -/
theorem confined_unit {q : PlannedNode} (hkey : IsName q.key) (hname : IsName name)
    (branch : Option Branch) :
    Confined (some (blockText (docLines q))) (unit q name branch)
      (unit q.bare name (branch.map Branch.bare)) := by
  have hhead : Alike ("async function " ++ name ++ "(state: State): Promise<Partial<State>> \x7b")
      ("async function " ++ name ++ "(state: State): Promise<Partial<State>> \x7b") :=
    ((alike_plain rfl).append (alike_name hname)).plain rfl
  have htools : Alike (indent ++ "const tools = " ++ listLiteral q.node.tools ++ ";")
      (indent ++ "const tools = " ++ listLiteral q.bare.node.tools ++ ";") :=
    ((alike_plain rfl).append (alike_listLiteral q.node.tools)).plain rfl
  have htodo : LineAlike (indent ++ "// " ++ todoNote (commentText (title q)))
      (indent ++ "// " ++ todoNote (commentText (title q.bare))) :=
    .note (alike_plain rfl) (isFlat_todoNote (isFlat_commentText (isFlat_title hkey)))
      (isFlat_todoNote (isFlat_commentText (isFlat_title_bare q)))
  -- the function without its comment, line by line
  have hbody : LinesAlike _ _ := .cons (.code hhead) (.cons (.code htools) (.cons htodo .nil))
  have hend : LinesAlike ["\x7d"] ["\x7d"] := .cons (lineAlike_plain rfl) .nil
  have hall := (hbody.append (linesAlike_result branch)).append hend
  rw [unit, unit, docComment_eq, docComment_eq]
  simpa only [List.append_assoc] using
    confined_blockComment (keepsOpen_docLines q) (keepsOpen_docLines q.bare) hall

/-- What stands between the marks of the comment before a function that chooses a route. -/
def routerText (source : String) : String := "* Pick the branch taken after " ++ source ++ ". "

theorem keepsOpen_routerText (h : HasNoSlash s) : KeepsOpen (routerText s) :=
  ((HasNoSlash.append (by decide) h).append (by decide)).keepsOpen

/-- The marks of a comment are parts of the texts around what stands in it. -/
theorem comment_of_marks {first last a b : String} (hfirst : first = "/*" ++ a)
    (hlast : last = b ++ "*/") (s : String) :
    first ++ s ++ last = "/*" ++ (a ++ s ++ b) ++ "*/" := by
  rw [hfirst, hlast]
  simp only [String.append_assoc]

theorem endLines_router (b : Branch) (name : String) :
    endLines (router b name) =
      "/*" ++ routerText b.source ++ "*/" ++ ("\n" ++ endLines ((router b name).drop 1)) := by
  have hcomment : "/** Pick the branch taken after " ++ b.source ++ ". */" =
      "/*" ++ routerText b.source ++ "*/" :=
    comment_of_marks (by decide +kernel) (by decide +kernel) b.source
  rw [← hcomment, ← String.append_assoc]
  rfl

/-- A router names its source in the comment, and its routes in literals. -/
theorem confined_router {b : Branch} (hsource : IsName b.source) (hname : IsName name) :
    Confined (some (routerText b.source)) (router b name) (router b.bare name) := by
  have hchoices : Alike (" | ".intercalate (routeLiterals b))
      (" | ".intercalate (routeLiterals b.bare)) :=
    alike_intercalate rfl (forall₂_routeLiterals b)
  have hhead : Alike
      ("function " ++ name ++ "(state: State): " ++ " | ".intercalate (routeLiterals b) ++ " \x7b")
      ("function " ++ name ++ "(state: State): " ++ " | ".intercalate (routeLiterals b.bare) ++
        " \x7b") :=
    ((((alike_plain rfl).append (alike_name hname)).plain rfl).append hchoices).plain rfl
  have hreturn : Alike
      (indent ++ "return state.route as " ++ " | ".intercalate (routeLiterals b) ++ ";")
      (indent ++ "return state.route as " ++ " | ".intercalate (routeLiterals b.bare) ++ ";") :=
    ((alike_plain rfl).append hchoices).plain rfl
  have hlines : LinesAlike ((router b name).drop 1) ((router b.bare name).drop 1) :=
    .cons (.code hhead) (.cons (.code hreturn) (.cons (lineAlike_plain rfl) .nil))
  have hempty : HasNoSlash "" := by decide
  exact confined_of_comment (keepsOpen_routerText (hasNoSlash_name hsource))
    (keepsOpen_routerText hempty) ((alike_plain rfl).append hlines.alike)
    (endLines_router b name) (endLines_router b.bare name)

/-! ### The chain of calls -/

theorem linesAlike_flatMap {α : Type} {as : List α} {f g : α → List String}
    (h : ∀ a ∈ as, LinesAlike (f a) (g a)) : LinesAlike (as.flatMap f) (as.flatMap g) := by
  rw [List.flatMap_def, List.flatMap_def]
  exact List.rel_flatten (forall₂_map_map h)

/-- Calls that name one node are all of this form. -/
theorem alike_call {first : String} (hfirst : first.toList.all isPlainChar = true)
    (hname : IsName name) (key : String) {last : String}
    (hlast : last.toList.all isPlainChar = true) :
    Alike (first ++ literal key ++ ", " ++ name ++ last)
      (first ++ literal "" ++ ", " ++ name ++ last) :=
  (((((alike_plain hfirst).append (alike_literal key "")).plain rfl).append
    (alike_name hname))).plain hlast

/-- Keys that were renamed are noted line by line. -/
theorem linesAlike_addBranch (hname : IsName name) (b : Branch) :
    LinesAlike (addBranch b name) (addBranch b.bare name) := by
  have hrenamed : LinesAlike (b.renamed.map fun key => indent ++ "// " ++ renamedNote key)
      (b.bare.renamed.map fun key => indent ++ "// " ++ renamedNote key) := by
    rw [Branch.bare, List.map_map]
    exact forall₂_map_map fun key _ =>
      .note (alike_plain rfl) (isFlat_renamedNote key) (isFlat_renamedNote "")
  have hroutes : LinesAlike
      (b.routes.map fun r => indent ++ literal r.key ++ ": " ++ literal r.target ++ ",")
      (b.bare.routes.map fun r => indent ++ literal r.key ++ ": " ++ literal r.target ++ ",") := by
    rw [Branch.bare, List.map_map]
    exact forall₂_map_map fun r _ => .code <|
      ((((alike_plain rfl).append (alike_literal r.key "")).plain rfl).append
        (alike_literal r.target "")).plain rfl
  have hcall : LinesAlike [".addConditionalEdges(" ++ literal b.source ++ ", " ++ name ++ ", \x7b"]
      [".addConditionalEdges(" ++ literal "" ++ ", " ++ name ++ ", \x7b"] :=
    .cons (.code (alike_call rfl hname b.source rfl)) .nil
  exact ((hcall.append hrenamed).append hroutes).append (.cons (lineAlike_plain rfl) .nil)

/-- Whether there is an entry is seen in the bare plan too. -/
theorem linesAlike_addEntry (p : Plan) : LinesAlike (addEntry p) (addEntry p.bare) := by
  rw [addEntry, addEntry, Plan.bare]
  cases p.entry with
  | none => exact .nil
  | some key =>
    have hedge : Alike (".addEdge(START, " ++ literal key ++ ")")
        (".addEdge(START, " ++ literal "" ++ ")") :=
      ((alike_plain rfl).append (alike_literal key "")).plain rfl
    have hnote : LinesAlike (if p.entryIsFallback then ["// " ++ fallbackNote] else [])
        (if p.entryIsFallback then ["// " ++ fallbackNote] else []) := by
      split
      · exact .cons (lineAlike_note isFlat_fallbackNote isFlat_fallbackNote) .nil
      · exact .nil
    exact hnote.append (.cons (.code hedge) .nil)

theorem linesAlike_noteUnreachable {p : Plan} (h : ∀ key ∈ p.unreachable, IsName key) :
    LinesAlike (noteUnreachable p) (noteUnreachable p.bare) := by
  have hbare : IsFlat (unreachableNote p.bare.unreachable) := by
    refine (isFlat_of_all rfl).append (.intercalate ?_)
    exact List.forall_mem_map.2 fun _ _ => isFlat_of_all rfl
  have hsame : p.bare.unreachable.isEmpty = p.unreachable.isEmpty := List.isEmpty_map
  rw [noteUnreachable, noteUnreachable, hsame]
  split
  · exact .nil
  · exact .cons (lineAlike_note (isFlat_unreachableNote h) hbare) .nil

theorem linesAlike_nodes {p : Plan} {functions : FunctionNames} (h : Legible p functions) :
    LinesAlike ((p.nodes.zip functions.units).map fun (q, name) => addNode q name)
      ((p.bare.nodes.zip functions.units).map fun (q, name) => addNode q name) := by
  rw [Plan.bare, List.zip_map_left, List.map_map]
  refine forall₂_map_map fun pair hmem => .code ?_
  exact alike_call rfl (h.units pair.2 (List.of_mem_zip hmem).2) pair.1.key rfl

theorem linesAlike_branches {p : Plan} {functions : FunctionNames} (h : Legible p functions) :
    LinesAlike ((p.branches.zip functions.routers).flatMap fun (b, name) => addBranch b name)
      ((p.bare.branches.zip functions.routers).flatMap fun (b, name) => addBranch b name) := by
  rw [Plan.bare, List.zip_map_left, List.flatMap_map]
  refine linesAlike_flatMap fun pair hmem => ?_
  exact linesAlike_addBranch (h.routers pair.2 (List.of_mem_zip hmem).2) pair.1

/-- The chain of calls is alike part by part. -/
theorem linesAlike_calls {p : Plan} {functions : FunctionNames} (h : Legible p functions) :
    LinesAlike (calls p functions) (calls p.bare functions) := by
  have hedges : LinesAlike (p.edges.map addEdge) (p.bare.edges.map addEdge) := by
    rw [Plan.bare, List.map_map]
    refine forall₂_map_map fun edge _ => .code ?_
    exact ((((alike_plain rfl).append (alike_literal edge.1 "")).plain rfl).append
      (alike_literal edge.2 "")).plain rfl
  have hsinks : LinesAlike (p.sinks.map addSink) (p.bare.sinks.map addSink) := by
    rw [Plan.bare, List.map_map]
    refine forall₂_map_map fun key _ => .code ?_
    exact ((alike_plain rfl).append (alike_literal key "")).plain rfl
  exact (((((linesAlike_nodes h).append (linesAlike_addEntry p)).append
    (linesAlike_noteUnreachable h.unreachable)).append hedges).append
    (linesAlike_branches h)).append hsinks

/-- The comment that there are no nodes, if there are none. -/
def emptyNote (p : Plan) : List String :=
  if p.nodes.isEmpty then ["// graph has no nodes yet"] else []

/-- The lines of the chain of calls, without the semicolon at its end. -/
def statement (p : Plan) (names : FunctionNames) : List String :=
  "const workflow = new StateGraph(FlowState)" :: (calls p names).map (indent ++ ·)

theorem wiring_eq (p : Plan) (names : FunctionNames) :
    wiring p names = emptyNote p ++ terminated (statement p names) ++
      ["", "export const app = workflow.compile();"] := rfl

theorem linesAlike_emptyNote (p : Plan) : LinesAlike (emptyNote p) (emptyNote p.bare) := by
  rw [emptyNote, emptyNote, Plan.bare, List.isEmpty_map]
  split
  · exact .cons (lineAlike_note_self "graph has no nodes yet" rfl (isFlat_of_all rfl)) .nil
  · exact .nil

theorem linesAlike_statement {p : Plan} {functions : FunctionNames} (h : Legible p functions) :
    LinesAlike (statement p functions) (statement p.bare functions) :=
  .cons (lineAlike_plain rfl) (linesAlike_calls h).indent

theorem linesAlike_wiring {p : Plan} {functions : FunctionNames} (h : Legible p functions) :
    LinesAlike (wiring p functions) (wiring p.bare functions) := by
  have hend : LinesAlike ["", "export const app = workflow.compile();"]
      ["", "export const app = workflow.compile();"] :=
    .cons (lineAlike_plain rfl) (.cons (lineAlike_plain rfl) .nil)
  rw [wiring_eq, wiring_eq]
  exact ((linesAlike_emptyNote p).append (linesAlike_statement h).terminated).append hend

/-! ## Programs -/

variable {nodes : List Node} {edges : List Edge} {entryId : Option String} {p : Plan}

/-- **Texts stay in their comments and literals**, in every section of the program of a plan. -/
theorem confined_of_plan (h : plan nodes edges entryId = .ok p) (project : String) :
    Confined (some (blockText (headerLines p project))) (header p project) (header p.bare "") ∧
    Confined none state state ∧
    (∀ q name, (q, name) ∈ p.nodes.zip (dialect.functionNames p).units → ∀ branch,
      Confined (some (blockText (docLines q))) (unit q name branch)
        (unit q.bare name (branch.map Branch.bare))) ∧
    (∀ b name, (b, name) ∈ p.branches.zip (dialect.functionNames p).routers →
      Confined (some (routerText b.source)) (router b name) (router b.bare name)) ∧
    Confined none (wiring p (dialect.functionNames p))
      (wiring p.bare (dialect.functionNames p)) := by
  have hlegible : Legible p (dialect.functionNames p) := Target.typescript.legible h
  refine ⟨confined_header (hasNoSlash_name (Plan.isName_entryName h)) project,
    linesAlike_state.confined, ?_, ?_, (linesAlike_wiring hlegible).confined⟩
  · intro q name hmem branch
    obtain ⟨hq, hname⟩ := List.of_mem_zip hmem
    exact confined_unit (Plan.isName_key h hq) (hlegible.units name hname) branch
  · intro b name hmem
    obtain ⟨hb, hname⟩ := List.of_mem_zip hmem
    exact confined_router (Plan.isName_source h hb) (hlegible.routers name hname)

/-- Two nodes; the texts of the first one end comments, lines and literals. -/
def hostileNodes : List Node := [
  { id := "a", label := "*/ f(); /*", description := "*/\u2028f();\n\" */",
    tools := ["*/", "\r f()"], roles := [.agent] },
  { id := "b", label := "B", roles := [.agent] }]

def hostileEdges : List Edge := [
  { source := "a", target := "b", kind := .conditional, routeKey := some "\n*/\"" },
  { source := "a", target := "a", kind := .conditional, routeKey := some "\n*/\"" }]

/-- Every text there is hostile, and a key is renamed. -/
theorem confined_of_plan_hostile : ∃ p, plan hostileNodes hostileEdges none = .ok p ∧
    p.branches.map (·.renamed.length) = [1] ∧
    Confined (some (blockText (headerLines p "*/ f();"))) (header p "*/ f();")
      (header p.bare "") ∧
    (∀ q name, (q, name) ∈ p.nodes.zip (dialect.functionNames p).units → ∀ branch,
      Confined (some (blockText (docLines q))) (unit q name branch)
        (unit q.bare name (branch.map Branch.bare))) := by
  have hplan : ∃ p, plan hostileNodes hostileEdges none = .ok p ∧
      p.branches.map (·.renamed.length) = [1] := ⟨_, rfl, by decide +kernel⟩
  obtain ⟨p, h, hrenamed⟩ := hplan
  obtain ⟨hheader, -, hunits, -⟩ := confined_of_plan h "*/ f();"
  exact ⟨p, h, hrenamed, hheader, hunits⟩

end Skeleton.TypeScript

end AgentFlow
