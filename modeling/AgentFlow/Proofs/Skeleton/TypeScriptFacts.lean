import AgentFlow.Proofs.Skeleton.Vocabulary
import AgentFlow.Skeleton.TypeScript
import Mathlib.Data.List.Chain

/-!
# What TypeScript programs say

Nothing in a block comment closes it but its own end (`keepsOpen_commentText`), so what is written
there says nothing. Every section of a program then says what it is there for, and nothing else: a
function defines its name, and the chain of calls attaches each function to its node.
-/

namespace AgentFlow.Skeleton.TypeScript

open Text Vocabulary

/-- The characters that end a line of code. -/
def isLineEnd (c : Char) : Bool := c == '\n' || c == '\r' || c == '\u2028' || c == '\u2029'

def vocabulary : Vocabulary where
  lexis := {
    slashes := true
    endsLine := isLineEnd
    endsLine_newline := rfl
    blank_of_endsLine := by
      intro c hc
      simp only [isLineEnd, Bool.or_eq_true, beq_iff_eq] at hc
      rcases hc with ((rfl | rfl) | rfl) | rfl <;> decide }
  definer := "function"
  nodeCall := "addNode"
  branchCall := "addConditionalEdges"
  others := [
    "import", "Annotation", "END", "START", "StateGraph", "from", "const", "FlowState", "Root",
    "messages", "unknown", "reducer", "left", "right", "concat", "default", "route", "string",
    "type", "State", "typeof", "async", "state", "Promise", "Partial", "tools", "return", "as",
    "workflow", "new", "addEdge", "export", "app", "compile"]
  nodup := by decide

variable {names : List String} {name : String} {mode : Mode} {s t : String}

/-! ## Block comments -/

/-- No star of the text has a slash right behind it. -/
def KeepsOpen (s : String) : Prop := s.toList.IsChain fun c d => ¬ (c = '*' ∧ d = '/')

/-- No end mark comes about where two texts meet. -/
theorem KeepsOpen.append (hs : KeepsOpen s) (ht : KeepsOpen t)
    (h : s.toList.getLast? ≠ some '*' ∨ t.toList.head? ≠ some '/') : KeepsOpen (s ++ t) := by
  rw [KeepsOpen, String.toList_append, List.isChain_append]
  refine ⟨hs, ht, ?_⟩
  rintro c hc d hd ⟨rfl, rfl⟩
  exact h.elim (fun hlast => hlast hc) fun hhead => hhead hd

def HasNoSlash (s : String) : Prop := ∀ c ∈ s.toList, c ≠ '/'

instance (s : String) : Decidable (HasNoSlash s) := List.decidableBAll (· ≠ '/') s.toList

theorem HasNoSlash.append (hs : HasNoSlash s) (ht : HasNoSlash t) : HasNoSlash (s ++ t) :=
  forall_mem_append hs ht

theorem hasNoSlash_of_isNameChar (h : ∀ c ∈ s.toList, isNameChar c = true) : HasNoSlash s := by
  rintro c hc rfl
  cases h '/' hc

/-- Without slashes there is no end mark. -/
theorem HasNoSlash.keepsOpen (h : HasNoSlash s) : KeepsOpen s := by
  refine (List.pairwise_iff_forall_sublist.2 fun {c d} hsub => ?_).isChain
  rintro ⟨-, rfl⟩
  exact h '/' (hsub.subset (by simp)) rfl

theorem head?_commentChars (cs : List Char) : (commentChars cs).head? = cs.head? := by
  fun_cases commentChars cs <;> rfl

/-- In an escaped text every slash behind a star has a backslash in front of it. -/
theorem isChain_commentChars (cs : List Char) :
    (commentChars cs).IsChain fun c d => ¬ (c = '*' ∧ d = '/') := by
  fun_induction commentChars cs with
  | case1 cs ih =>
    rw [List.isChain_cons_cons, List.isChain_cons_cons, List.isChain_cons]
    exact ⟨by decide, by decide, fun d _ h => absurd h.1 (by decide), ih⟩
  | case2 c cs hbroken ih =>
    -- a star before a slash would have been broken up
    refine List.isChain_cons.2 ⟨?_, ih⟩
    rintro d hd ⟨rfl, rfl⟩
    rw [head?_commentChars] at hd
    obtain ⟨rest, rfl⟩ := List.head?_eq_some_iff.1 hd
    exact hbroken rest rfl rfl
  | case3 => exact .nil

/-- An escaped text never closes its comment. -/
theorem keepsOpen_commentText (s : String) : KeepsOpen (commentText s) := by
  rw [KeepsOpen, commentText, String.toList_ofList]
  exact isChain_commentChars s.toList

/-- A prefix of an open text is open. -/
theorem KeepsOpen.trimEnd (h : KeepsOpen s) : KeepsOpen (trimEnd s) := by
  rw [KeepsOpen, Text.trimEnd, String.toList_ofList]
  exact List.IsChain.prefix h (List.rdropWhile_prefix isBlank s.toList)

theorem keepsOpen_intercalate {parts : List String} (h : ∀ part ∈ parts, KeepsOpen part) :
    KeepsOpen (", ".intercalate parts) := by
  induction parts with
  | nil => exact .nil
  | cons part rest ih =>
    obtain ⟨hpart, hrest⟩ := List.forall_mem_cons.1 h
    by_cases hnil : rest = []
    · rwa [hnil, String.intercalate_singleton]
    · have hsep : HasNoSlash ", " := by decide
      rw [String.intercalate_cons_of_ne_nil hnil]
      exact (hpart.append hsep.keepsOpen (.inr (by decide))).append (ih hrest) (.inl (by simp))

/-- In a text that keeps the comment open, the lexer stays in the comment. -/
theorem run_long {cs : List Char} (h : cs.IsChain fun c d => ¬ (c = '*' ∧ d = '/')) (seen : Nat)
    (hseen : seen = 1 → cs.head? ≠ some '/') :
    ∃ last, vocabulary.lexis.run (.long seen) cs = (.long last, []) := by
  induction cs generalizing seen with
  | nil => exact ⟨seen, rfl⟩
  | cons c rest ih =>
    obtain ⟨hhead, hrest⟩ := List.isChain_cons.1 h
    -- the lexer keeps in mind if a star was just read
    have hstep : ∃ next, vocabulary.lexis.stepLong seen c = .long next ∧ (next = 1 → c = '*') := by
      by_cases hstar : c = '*'
      · exact ⟨1, by simp [Lexis.stepLong, vocabulary, hstar], fun _ => hstar⟩
      · have hclosed : ¬ (c = '/' ∧ seen = 1) := by
          rintro ⟨rfl, hone⟩
          exact hseen hone rfl
        exact ⟨0, by simp [Lexis.stepLong, vocabulary, hstar, hclosed], by simp⟩
    obtain ⟨next, hnext, hstar⟩ := hstep
    obtain ⟨last, hlast⟩ := ih hrest next fun hone hslash => hhead '/' hslash ⟨hstar hone, rfl⟩
    exact ⟨last, by rw [Lexis.run_cons, Lexis.step, hnext, hlast]; rfl⟩

/-- A line in a comment leaves the lexer in the comment. -/
theorem says_commentLine (h : KeepsOpen s) :
    vocabulary.Says names (.long 0) (s ++ "\n") [] (.long 0) := by
  obtain ⟨last, hlast⟩ := run_long h 0 (by simp)
  have hnewline : vocabulary.lexis.Reads (.long last) "\n" [] (.long 0) := rfl
  exact ⟨[], Lexis.Reads.append hlast hnewline, .nil⟩

/-- A comment of lines that keep it open says nothing. -/
theorem says_blockComment {lines : List String} (h : ∀ line ∈ lines, KeepsOpen line) :
    vocabulary.Says names .code (endLines (["/**"] ++ lines ++ [" */"])) [] .code := by
  have hopen : vocabulary.Says names .code (endLines ["/**"]) [] (.long 0) := ⟨[], rfl, .nil⟩
  have hclose : vocabulary.Says names (.long 0) (endLines [" */"]) [] .code := ⟨[], rfl, .nil⟩
  -- between the marks
  have hlines : vocabulary.Says names (.long 0) (endLines lines) [] (.long 0) := by
    induction lines with
    | nil => exact ⟨[], rfl, .nil⟩
    | cons line rest ih =>
      obtain ⟨hline, hrest⟩ := List.forall_mem_cons.1 h
      exact (says_commentLine hline).append (ih hrest)
  rw [endLines_append, endLines_append]
  exact (hopen.append hlines).append hclose

/-! ## Lines -/

theorem says_indent : vocabulary.Says names .code indent [] .code := ⟨[], rfl, .nil⟩

theorem SaysLines.indent {lines : List String} {found : List Fact}
    (h : vocabulary.SaysLines names lines found) :
    vocabulary.SaysLines names (lines.map (indent ++ ·)) found :=
  h.map fun _ _ hline => hline.indent rfl

theorem saysLines_indented {cs : List Char} (hs : s = String.ofList cs)
    (h : vocabulary.isPlainLine cs = true) : vocabulary.SaysLines names [indent ++ s] [] :=
  SaysLines.indent (saysLines_plain hs h)

theorem says_commentStart : vocabulary.Says names .code "// " [] .note := ⟨[], rfl, .nil⟩

/-- A flat comment is closed by the end of its line and says nothing. -/
theorem saysLines_comment (h : IsFlat s) : vocabulary.SaysLines names ["// " ++ s] [] :=
  says_commentStart.commentLine h

theorem saysLines_comment_indent (h : IsFlat s) :
    vocabulary.SaysLines names [indent ++ "// " ++ s] [] :=
  (says_indent.append says_commentStart).commentLine h

theorem says_listLiteral (texts : List String) :
    vocabulary.Says names .code (listLiteral texts) [] .code := by
  rw [listLiteral, String.append_assoc]
  exact (says_plain rfl rfl).append (says_literals rfl rfl rfl rfl texts)

/-! ## The header and the state -/

def headerLines (p : Plan) (project : String) : List String := [
  " * " ++ commentText (oneLine project) ++ ": LangGraph.js skeleton generated by GraphBuilder.",
  " *",
  " * Nodes: " ++ p.nodes.length.repr ++ " | Entry: " ++ entryName p]

theorem header_eq (p : Plan) (project : String) :
    header p project = ["/**"] ++ headerLines p project ++ [" */"] ++ ["",
      "import \x7b Annotation, END, START, StateGraph \x7d from \"@langchain/langgraph\";"] := rfl

/-- The name of the project is escaped, and the rest has no slashes. -/
theorem keepsOpen_headerLines {p : Plan} (hentry : HasNoSlash (entryName p)) (project : String) :
    ∀ line ∈ headerLines p project, KeepsOpen line := by
  have htext : ∀ {text : String}, HasNoSlash text → KeepsOpen text := HasNoSlash.keepsOpen
  have htitle : KeepsOpen (" * " ++ commentText (oneLine project) ++
      ": LangGraph.js skeleton generated by GraphBuilder.") :=
    ((htext (by decide)).append (keepsOpen_commentText _) (.inl (by decide))).append
      (htext (by decide +kernel)) (.inr (by decide))
  have hnumber : HasNoSlash p.nodes.length.repr :=
    hasNoSlash_of_isNameChar fun _ => isNameChar_of_mem_repr
  have hcounts : HasNoSlash
      (" * Nodes: " ++ p.nodes.length.repr ++ " | Entry: " ++ entryName p) :=
    ((HasNoSlash.append (by decide) hnumber).append (by decide)).append hentry
  simp only [headerLines, List.forall_mem_cons]
  exact ⟨htitle, htext (by decide), hcounts.keepsOpen, by simp⟩

/-- The header is a comment and the imports. -/
theorem says_header {p : Plan} (hentry : HasNoSlash (entryName p)) (project : String) :
    vocabulary.Says names .code (endLines (header p project)) [] .code := by
  have himport : vocabulary.SaysLines names
      ["", "import \x7b Annotation, END, START, StateGraph \x7d from \"@langchain/langgraph\";"]
      [] := saysLines_blank.append (saysLines_plain rfl rfl)
  rw [header_eq, endLines_append]
  exact (says_blockComment (keepsOpen_headerLines hentry project)).append himport.ended

/-- The state is the same in every program. -/
theorem saysLines_state : vocabulary.SaysLines names state [] := by
  have hline : ∀ {line : String} {cs : List Char}, line = String.ofList cs →
      vocabulary.isPlain cs = true → vocabulary.SaysLines names [indent ++ indent ++ line] [] :=
    fun hs h => ((says_indent.append says_indent).append (says_plain hs h)).codeLine
  have hmessages : vocabulary.SaysLines names (state.take 5) [] :=
    (saysLines_plain rfl rfl).append
      ((saysLines_indented rfl rfl).append ((hline rfl rfl).append
        ((hline rfl rfl).append (saysLines_indented rfl rfl))))
  have hroute : vocabulary.SaysLines names (state.drop 5) [] :=
    (saysLines_indented rfl rfl).append
      ((saysLines_indented rfl rfl).append
        ((saysLines_plain rfl rfl).append (saysLines_blank.append
          (saysLines_plain rfl rfl))))
  exact hmessages.append hroute

/-! ## Functions -/

/-- The lines of a description are escaped and then trimmed. -/
theorem keepsOpen_description (q : PlannedNode) : ∀ line ∈ description q, KeepsOpen line := by
  have hstar : HasNoSlash " *" := by decide
  have htext : HasNoSlash " * " := by decide
  rw [description]
  split
  · simp
  · refine List.forall_mem_cons.2 ⟨hstar.keepsOpen, List.forall_mem_map.2 fun text _ => ?_⟩
    exact (htext.keepsOpen.append (keepsOpen_commentText text) (.inl (by decide))).trimEnd

theorem keepsOpen_toolNames (q : PlannedNode) : KeepsOpen (toolNames commentText q) := by
  have hnone : HasNoSlash "none" := by decide
  rw [toolNames]
  split
  · exact hnone.keepsOpen
  · exact keepsOpen_intercalate (List.forall_mem_map.2 fun tool _ => keepsOpen_commentText tool)

theorem hasNoSlash_roleNames (q : PlannedNode) : HasNoSlash (roleNames q) := by
  have hsep : HasNoSlash ", " := by decide
  have hrole (role : Role) : HasNoSlash role.text := by cases role <;> decide
  exact forall_mem_intercalate hsep (List.forall_mem_map.2 fun role _ => hrole role)

def docLines (q : PlannedNode) : List String :=
  [" * " ++ commentText (title q)] ++ description q ++ [
    " *",
    " * Roles: " ++ roleNames q,
    " * Tools: " ++ toolNames commentText q]

theorem docComment_eq (q : PlannedNode) : docComment q = ["/**"] ++ docLines q ++ [" */"] := by
  simp [docComment, docLines]

/-- Title, description and tools are escaped; the rest has no slashes. -/
theorem keepsOpen_docLines (q : PlannedNode) : ∀ line ∈ docLines q, KeepsOpen line := by
  have hstar : HasNoSlash " *" := by decide
  have htitle : KeepsOpen (" * " ++ commentText (title q)) :=
    (HasNoSlash.keepsOpen (by decide)).append (keepsOpen_commentText _) (.inl (by decide))
  have hroles : HasNoSlash (" * Roles: " ++ roleNames q) :=
    HasNoSlash.append (by decide) (hasNoSlash_roleNames q)
  have htools : KeepsOpen (" * Tools: " ++ toolNames commentText q) :=
    (HasNoSlash.keepsOpen (by decide)).append (keepsOpen_toolNames q) (.inl (by decide))
  simp only [docLines, List.forall_mem_append, List.forall_mem_cons]
  exact ⟨⟨⟨htitle, by simp⟩, keepsOpen_description q⟩, hstar.keepsOpen, hroles.keepsOpen, htools,
    by simp⟩

/-- What is written about a node says nothing. -/
theorem says_docComment (q : PlannedNode) :
    vocabulary.Says names .code (endLines (docComment q)) [] .code := by
  rw [docComment_eq]
  exact says_blockComment (keepsOpen_docLines q)

/-- The route that a stub returns is a literal. -/
theorem saysLines_result (branch : Option Branch) :
    vocabulary.SaysLines names (result branch) [] := by
  cases branch with
  | none => exact saysLines_indented rfl rfl
  | some b =>
    have hreturn : vocabulary.Says names .code
        (indent ++ "return \x7b route: " ++ firstRoute b ++ " \x7d;") [] .code :=
      (says_indent.plain rfl rfl).quoted _ rfl rfl
    exact (saysLines_comment_indent (isFlat_returnNote b)).append hreturn.codeLine

/-- Escaping adds backslashes only. -/
theorem mem_of_mem_commentChars {c : Char} {cs : List Char} (h : c ∈ commentChars cs) :
    c ∈ cs ∨ c = '\x5c' := by
  fun_induction commentChars cs with
  | case1 cs ih =>
    simp only [List.mem_cons] at h ⊢
    tauto
  | case2 d cs _ ih =>
    simp only [List.mem_cons] at h ⊢
    tauto
  | case3 => cases h

/-- A backslash is no blank, so escaping keeps a text flat. -/
theorem isFlat_commentText (h : IsFlat s) : IsFlat (commentText s) := by
  intro c hc
  rw [commentText, String.toList_ofList] at hc
  rcases mem_of_mem_commentChars hc with hc | rfl
  · exact h c hc
  · exact .inr rfl

/-- The function of a node defines its name and says nothing else. -/
theorem says_unit {q : PlannedNode} (hkey : IsName q.key) (hname : IsName name)
    (hmem : name ∈ names) (branch : Option Branch) :
    vocabulary.Says names .code (endLines (unit q name branch)) [.defines name] .code := by
  have hhead : vocabulary.Says names .code
      ("async function " ++ name ++ "(state: State): Promise<Partial<State>> \x7b")
      [.defines name] .code :=
    says_definition [.word "async".toList] rfl rfl rfl hname (List.mem_append_right _ hmem)
      rfl rfl rfl
  have htools : vocabulary.Says names .code
      (indent ++ "const tools = " ++ listLiteral q.node.tools ++ ";") [] .code :=
    ((says_indent.plain rfl rfl).append (says_listLiteral _)).plain rfl rfl
  have htodo : vocabulary.SaysLines names
      [indent ++ "// " ++ todoNote (commentText (title q))] [] :=
    saysLines_comment_indent (isFlat_todoNote (isFlat_commentText (isFlat_title hkey)))
  have hend : vocabulary.SaysLines names ["\x7d"] [] := saysLines_plain rfl rfl
  have hbody := ((hhead.codeLine.append (htools.codeLine.append htodo)).append
    (saysLines_result branch)).append hend
  have hall := (says_docComment q).append hbody.ended
  rw [← endLines_append] at hall
  simpa [unit] using hall

/-- The type of a function that chooses a route, and what stands behind it. -/
theorem says_choices {cs : List Char} (ht : t = String.ofList cs)
    (h : vocabulary.isPlainBehind cs = true) (b : Branch) :
    vocabulary.Says names .code (" | ".intercalate (routeLiterals b) ++ t) [] .code := by
  rw [routeLiterals_eq_map]
  exact says_literals rfl rfl ht h _

/-- The function that chooses a route defines its name; the routes are literals. -/
theorem saysLines_router {b : Branch} (hsource : IsName b.source) (hname : IsName name)
    (hmem : name ∈ names) : vocabulary.SaysLines names (router b name) [.defines name] := by
  -- the source is a name, so it keeps the comment open
  have hcomment : vocabulary.Says names .code
      ("/** Pick the branch taken after " ++ b.source ++ ". */") [] .code := by
    have hopen : vocabulary.Says names .code "/** Pick the branch taken after " [] (.long 0) :=
      says_nothing rfl rfl
    have hsource : KeepsOpen b.source := (hasNoSlash_of_isNameChar hsource.chars).keepsOpen
    obtain ⟨last, hlast⟩ := run_long hsource 0 (by simp)
    have hclose : vocabulary.Says names (.long last) ". */" [] .code := says_nothing rfl rfl
    exact (hopen.append ⟨[], hlast, .nil⟩).append hclose
  have hstart : vocabulary.Says names .code ("function " ++ name ++ "(state: State): ")
      [.defines name] .code :=
    says_definition [] rfl rfl rfl hname (List.mem_append_right _ hmem) rfl rfl rfl
  have hhead : vocabulary.Says names .code ("function " ++ name ++ "(state: State): " ++
      " | ".intercalate (routeLiterals b) ++ " \x7b") [.defines name] .code := by
    rw [String.append_assoc]
    exact hstart.append (says_choices rfl rfl b)
  have hreturn : vocabulary.Says names .code (indent ++ "return state.route as " ++
      " | ".intercalate (routeLiterals b) ++ ";") [] .code := by
    rw [String.append_assoc]
    exact (says_indent.plain rfl rfl).append (says_choices rfl rfl b)
  exact hcomment.codeLine.append (hhead.codeLine.append
    (hreturn.codeLine.append (saysLines_plain rfl rfl)))

/-! ## The chain of calls -/

variable {p : Plan}

/-- A call up to the name that it attaches. -/
theorem reads_call (first call : String) {cs : List Char} (key : String)
    (hs : first = String.ofList cs)
    (hfirst : vocabulary.lexis.run .code cs =
      (.code, [.mark '.', .word call.toList, .mark '(']))
    (hname : IsName name) :
    vocabulary.lexis.Reads .code (first ++ literal key ++ ", " ++ name)
      [.mark '.', .word call.toList, .mark '(', .literal (literal key).toList, .mark ',']
      (.word name.toList) := by
  have hcall : vocabulary.lexis.Reads .code first
      [.mark '.', .word call.toList, .mark '('] .code := by
    rwa [Lexis.Reads, hs, String.toList_ofList]
  have hcomma : ∀ raw, vocabulary.lexis.Reads (.closed raw) ", " [.literal raw, .mark ','] .code :=
    fun _ => rfl
  exact ((hcall.append (Lexis.reads_literal key)).append (hcomma _)).append (Lexis.reads_name hname)

/-- The call attaches the function to the node. -/
theorem says_addNode (hname : IsName name) (hmem : name ∈ names) (q : PlannedNode) :
    vocabulary.Says names .code (addNode q name) [.node (literal q.key) name] .code := by
  have hclose : ∀ cs, vocabulary.lexis.Reads (.word cs) ")" [.word cs, .mark ')'] .code :=
    fun _ => rfl
  have hdot : vocabulary.Tells names [.mark '.'] [] := tells_others (by simp [Token.isOf])
  have hreads := reads_call ".addNode(" "addNode" q.key rfl rfl hname
  exact ⟨_, hreads.append (hclose _), hdot.append (tells_nodeCall hmem (by decide))⟩

/-- The call attaches the function to the branch; the routes are literals. -/
theorem saysLines_addBranch (hname : IsName name) (hmem : name ∈ names) (b : Branch) :
    vocabulary.SaysLines names (addBranch b name) [.branch (literal b.source) name] := by
  have hopen : ∀ cs, vocabulary.lexis.Reads (.word cs) ", \x7b"
      [.word cs, .mark ',', .mark '\x7b'] .code := fun _ => rfl
  have hmarks : ∀ c, vocabulary.Tells names [.mark c] [] := fun c =>
    tells_others (by simp [Token.isOf])
  have hreads := reads_call ".addConditionalEdges(" "addConditionalEdges" b.source rfl
    rfl hname
  have hcall : vocabulary.Says names .code
      (".addConditionalEdges(" ++ literal b.source ++ ", " ++ name ++ ", \x7b")
      [.branch (literal b.source) name] .code :=
    ⟨_, hreads.append (hopen _), ((hmarks '.').append
      (tells_branchCall hmem (by decide))).append (hmarks '\x7b')⟩
  -- keys that were renamed are in comments
  have hrenamed : vocabulary.SaysLines names
      (b.renamed.map fun key => indent ++ "// " ++ renamedNote key) [] :=
    saysLines_map fun key _ => saysLines_comment_indent (isFlat_renamedNote key)
  have hroutes : vocabulary.SaysLines names
      (b.routes.map fun r => indent ++ literal r.key ++ ": " ++ literal r.target ++ ",") [] := by
    refine saysLines_map fun r _ => Says.codeLine ?_
    exact (says_indent.quoted r.key rfl rfl).quoted r.target rfl rfl
  exact ((hcall.codeLine.append hrenamed).append hroutes).append
    (saysLines_plain rfl rfl)

theorem says_addEdge (edge : String × String) :
    vocabulary.Says names .code (addEdge edge) [] .code :=
  ((says_plain rfl rfl).quoted edge.1 rfl rfl).quoted edge.2 rfl rfl

theorem says_addSink (key : String) : vocabulary.Says names .code (addSink key) [] .code :=
  (says_plain rfl rfl).quoted key rfl rfl

theorem saysLines_addEntry (p : Plan) : vocabulary.SaysLines names (addEntry p) [] := by
  rw [addEntry]
  cases p.entry with
  | none => exact .nil
  | some key =>
    have hnote : vocabulary.SaysLines names
        (if p.entryIsFallback then ["// " ++ fallbackNote] else []) [] := by
      split
      · exact saysLines_comment isFlat_fallbackNote
      · exact .nil
    have hedge : vocabulary.Says names .code (".addEdge(START, " ++ literal key ++ ")") []
        .code := (says_plain rfl rfl).quoted key rfl rfl
    exact hnote.append hedge.codeLine

theorem saysLines_noteUnreachable (h : ∀ key ∈ p.unreachable, IsName key) :
    vocabulary.SaysLines names (noteUnreachable p) [] := by
  rw [noteUnreachable]
  split
  · exact .nil
  · exact saysLines_comment (isFlat_unreachableNote h)

theorem saysLines_nodes {functions : FunctionNames} (h : Legible p functions)
    (hunits : functions.units ⊆ names) :
    vocabulary.SaysLines names ((p.nodes.zip functions.units).map fun (q, name) => addNode q name)
      ((p.nodes.zip functions.units).map fun (q, name) => .node (literal q.key) name) := by
  rw [List.map_eq_flatMap]
  exact SaysLines.flatMap_zip fun q (_ : q ∈ p.nodes) name hname =>
    (says_addNode (h.units name hname) (hunits hname) q).codeLine

/-- The chain attaches the functions of the nodes, then those of the branches. -/
theorem saysLines_calls {functions : FunctionNames} (h : Legible p functions)
    (hunits : functions.units ⊆ names) (hrouters : functions.routers ⊆ names) :
    vocabulary.SaysLines names (calls p functions) (attachments p functions) := by
  have hbranches := SaysLines.flatMap_zip fun b (_ : b ∈ p.branches) name hname =>
    saysLines_addBranch (h.routers name hname) (hrouters hname) b
  have hedges : vocabulary.SaysLines names (p.edges.map addEdge) [] :=
    saysLines_map fun edge _ => (says_addEdge edge).codeLine
  have hsinks : vocabulary.SaysLines names (p.sinks.map addSink) [] :=
    saysLines_map fun key _ => (says_addSink key).codeLine
  have hall := (((((saysLines_nodes h hunits).append (saysLines_addEntry p)).append
    (saysLines_noteUnreachable h.unreachable)).append hedges).append hbranches).append hsinks
  simpa only [List.append_nil, calls, attachments] using hall

/-! ## The semicolon -/

/-- A semicolon behind a line is a mark of its own, or part of the comment there. -/
theorem lineReads_semicolon {line : String} {toks : List Token}
    (h : vocabulary.lexis.LineReads line toks) :
    ∃ tail, vocabulary.lexis.LineReads (line ++ ";") (toks ++ tail) ∧
      ∀ tok ∈ tail, tok = .mark ';' := by
  obtain ⟨last, out, hreads, hbreakable, rfl⟩ := h
  have hcode : vocabulary.lexis.Reads last ";" (last.flush ++ [.mark ';']) .code →
      ∃ tail, vocabulary.lexis.LineReads (line ++ ";") (out ++ last.flush ++ tail) ∧
        ∀ tok ∈ tail, tok = .mark ';' := by
    intro hsemicolon
    refine ⟨[.mark ';'], ⟨.code, _, hreads.append hsemicolon, rfl, ?_⟩, by simp⟩
    have hflush : Mode.code.flush = [] := rfl
    rw [hflush, List.append_nil, List.append_assoc]
  cases last with
  | note =>
    -- The comment goes on to the end of the line, and takes the semicolon along.
    exact ⟨[], ⟨.note, out ++ [], hreads.append rfl, rfl, rfl⟩, by simp⟩
  | code | word cs | closed raw => exact hcode rfl
  | text raw | escape raw | slash | long seen | longEscape => cases hbreakable

/-- All that the semicolon can add to some lines is a mark. -/
theorem linesRead_terminated {lines : List String} {toks : List Token}
    (h : vocabulary.lexis.LinesRead lines toks) :
    ∃ tail, vocabulary.lexis.LinesRead (terminated lines) (toks ++ tail) ∧
      ∀ tok ∈ tail, tok = .mark ';' := by
  induction h with
  | nil => exact ⟨[], .nil, by simp⟩
  | @cons line rest toks more hline hrest ih =>
    cases rest with
    | nil =>
      cases hrest
      obtain ⟨tail, htail, hmarks⟩ := lineReads_semicolon hline
      exact ⟨tail, by simpa using .singleton htail, hmarks⟩
    | cons next others =>
      obtain ⟨tail, htail, hmarks⟩ := ih
      refine ⟨tail, ?_, hmarks⟩
      rw [List.append_assoc]
      exact .cons hline htail

/-- So it changes nothing of what they say. -/
theorem SaysLines.terminated {lines : List String} {found : List Fact}
    (h : vocabulary.SaysLines names lines found) :
    vocabulary.SaysLines names (terminated lines) found := by
  obtain ⟨toks, hreads, htells⟩ := h
  obtain ⟨tail, htail, hmarks⟩ := linesRead_terminated hreads
  have hplain : vocabulary.Tells names tail [] :=
    tells_others fun tok htok => hmarks tok htok ▸ rfl
  have hall := htells.append hplain
  rw [List.append_nil] at hall
  exact ⟨_, htail, hall⟩

/-- The builder attaches the functions of the plan. -/
theorem saysLines_wiring {functions : FunctionNames} (h : Legible p functions)
    (hunits : functions.units ⊆ names) (hrouters : functions.routers ⊆ names) :
    vocabulary.SaysLines names (wiring p functions) (attachments p functions) := by
  have hempty : vocabulary.SaysLines names
      (if p.nodes.isEmpty then ["// graph has no nodes yet"] else []) [] := by
    split
    · exact saysLines_plain rfl rfl
    · exact .nil
  have hstart : vocabulary.SaysLines names ["const workflow = new StateGraph(FlowState)"] [] :=
    saysLines_plain rfl rfl
  have hend : vocabulary.SaysLines names ["", "export const app = workflow.compile();"] [] :=
    saysLines_blank.append (saysLines_plain rfl rfl)
  have hchain := SaysLines.terminated
    (hstart.append (SaysLines.indent (saysLines_calls h hunits hrouters)))
  have hall := (hempty.append hchain).append hend
  rw [List.append_nil] at hall
  exact hall

end AgentFlow.Skeleton.TypeScript
