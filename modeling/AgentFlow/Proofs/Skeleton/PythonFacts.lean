import AgentFlow.Proofs.Skeleton.Docstrings
import AgentFlow.Proofs.Skeleton.Vocabulary

/-!
# What Python programs say

The lexer reads over a docstring as a reader of docstrings does (`run_long_of_readDoc`), so what is
written there says nothing. Every section of a program then says what it is there for, and nothing
else: a function defines its name, and the builder attaches each function to its node.
-/

namespace AgentFlow.Skeleton.Python

open Text Vocabulary

def vocabulary : Vocabulary where
  lexis := {
    slashes := false
    endsLine := isLineBreak
    endsLine_newline := rfl
    blank_of_endsLine := by
      intro c hc
      rw [isLineBreak, Bool.or_eq_true, beq_iff_eq, beq_iff_eq] at hc
      rcases hc with rfl | rfl <;> decide }
  definer := "def"
  nodeCall := "add_node"
  branchCall := "add_conditional_edges"
  others := [
    "from", "typing", "import", "Literal", "TypedDict", "langgraph", "graph", "END", "START",
    "StateGraph", "class", "FlowState", "total", "False", "messages", "list", "route", "str",
    "state", "dict", "tools", "return", "metadata", "add_edge", "compile", "app", "build_graph"]
  nodup := by decide

variable {names : List String} {name : String} {mode : Mode}

/-! ## Docstrings and comments -/

/-- A docstring ends where a reader of docstrings says, however many quotes are behind. -/
theorem run_long_of_readDoc {cs w rest : List Char} (h : readDoc cs = some (w, rest)) :
    vocabulary.lexis.run (.long 0) cs = vocabulary.lexis.run .code rest ∧
      (¬ ['\x22', '\x22'] <+: cs →
        vocabulary.lexis.run (.long 1) cs = vocabulary.lexis.run .code rest) ∧
      (¬ ['\x22'] <+: cs →
        vocabulary.lexis.run (.long 2) cs = vocabulary.lexis.run .code rest) := by
  -- `seen` counts the quotes just read, and the induction keeps what each count allows
  fun_induction readDoc cs generalizing w with
  | case1 rest' =>
    cases h
    exact ⟨rfl, fun hquotes => absurd ⟨_, rfl⟩ hquotes, fun hquote => absurd ⟨_, rfl⟩ hquote⟩
  | case2 c rest' ih =>
    obtain ⟨⟨w', last⟩, hread, heq⟩ := Option.map_eq_some_iff.1 h
    cases heq
    have hlong := (ih hread).1
    exact ⟨hlong, fun _ => hlong, fun _ => hlong⟩
  | case3 c rest' hquotes hbackslash ih =>
    obtain ⟨⟨w', last⟩, hread, heq⟩ := Option.map_eq_some_iff.1 h
    cases heq
    obtain ⟨hnone, hone, htwo⟩ := ih hread
    by_cases hquote : c = '\x22'
    · -- The third quote in a row would have closed the docstring.
      subst hquote
      have htwoQuotes : ¬ ['\x22', '\x22'] <+: rest' := by
        rintro ⟨behind, rfl⟩
        exact hquotes behind rfl rfl
      refine ⟨hone htwoQuotes, fun hmore => htwo ?_, fun hmore => absurd ⟨rest', rfl⟩ hmore⟩
      rintro ⟨behind, rfl⟩
      exact hmore ⟨behind, rfl⟩
    · -- a backslash would have taken the character behind it along
      have hplain : c ≠ '\x5c' := by
        rintro rfl
        cases rest' with
        | nil => cases hread
        | cons d behind => exact hbackslash d behind rfl rfl
      have hstep : ∀ seen, vocabulary.lexis.run (.long seen) (c :: rest') =
          vocabulary.lexis.run (.long 0) rest' := by
        intro seen
        have hlong : vocabulary.lexis.stepLong seen c = .long 0 := by
          simp [Lexis.stepLong, vocabulary, hquote, hplain]
        rw [Lexis.run_cons, Lexis.step, hlong]
        rfl
      rw [hstep, hstep, hstep]
      exact ⟨hnone, fun _ => hnone, fun _ => hnone⟩
  | case4 => cases h

/-- A docstring says nothing, so only what stands before and behind it counts. -/
theorem says_of_hasDocstring {text before meaning after : String} {found others : List Fact}
    (h : HasDocstring text before meaning after)
    (hbefore : vocabulary.Says names .code before found .code)
    (hafter : vocabulary.Says names .code (after ++ "\n") others .code) :
    vocabulary.Says names .code (text ++ "\n") (found ++ others) .code := by
  obtain ⟨written, rfl, hread, -⟩ := h
  obtain ⟨more, hreads, htells⟩ := hafter
  have hlong := (run_long_of_readDoc hread).1
  -- from behind the opening quotes the lexer gets to where the docstring ends
  have hdoc : vocabulary.Says names (.long 0) (written ++ quotes ++ (after ++ "\n")) others
      .code := by
    refine ⟨more, ?_, htells⟩
    rw [Lexis.Reads, ← String.append_assoc, String.toList_append, Lexis.run_append, hlong,
      ← Lexis.run_append, ← String.toList_append]
    exact hreads
  have hquotes : vocabulary.Says names .code quotes [] (.long 0) := ⟨[], rfl, .nil⟩
  have hall := hbefore.append (hquotes.append hdoc)
  rw [List.nil_append] at hall
  simpa only [String.append_assoc] using hall

theorem says_indent : vocabulary.Says names .code indent [] .code := ⟨[], rfl, .nil⟩

theorem SaysLines.indent {line : String} {found : List Fact}
    (h : vocabulary.SaysLines names [line] found) :
    vocabulary.SaysLines names [indent ++ line] found :=
  h.map fun _ _ hline => hline.indent rfl

theorem says_commentStart : vocabulary.Says names .code "# " [] .note := ⟨[], rfl, .nil⟩

/-- A flat comment is closed by the end of its line and says nothing. -/
theorem saysLines_comment {note : String} (h : IsFlat note) :
    vocabulary.SaysLines names ["# " ++ note] [] :=
  says_commentStart.commentLine h

theorem saysLines_comment_indent {note : String} (h : IsFlat note) :
    vocabulary.SaysLines names [indent ++ "# " ++ note] [] :=
  (says_indent.append says_commentStart).commentLine h

/-! ## The header and the state -/

/-- Imports are words that every program has. -/
theorem saysLines_imports (p : Plan) : vocabulary.SaysLines names (imports p) [] := by
  have htyping : vocabulary.SaysLines names
      [if p.branches.isEmpty then "from typing import TypedDict"
        else "from typing import Literal, TypedDict"] [] := by
    split <;> exact saysLines_plain rfl rfl
  have hgraph : vocabulary.SaysLines names
      ["", "from langgraph.graph import END, START, StateGraph"] [] :=
    saysLines_blank.append (saysLines_plain rfl rfl)
  exact saysLines_blank.append (htyping.append hgraph)

/-- The state is the same in every program. -/
theorem saysLines_state : vocabulary.SaysLines names state [] :=
  ((saysLines_plain rfl rfl).append
    (SaysLines.indent (saysLines_plain rfl rfl))).append
      (SaysLines.indent (saysLines_plain rfl rfl))

/-! ## Functions -/

theorem says_listLiteral (texts : List String) :
    vocabulary.Says names .code (listLiteral texts) [] .code := by
  rw [listLiteral, String.append_assoc]
  exact (says_plain rfl rfl).append (says_literals rfl rfl rfl rfl texts)

/-- The route that a stub returns is a literal. -/
theorem saysLines_result (branch : Option Branch) :
    vocabulary.SaysLines names (result branch) [] := by
  cases branch with
  | none => exact SaysLines.indent (saysLines_plain rfl rfl)
  | some b =>
    have hreturn : vocabulary.Says names .code
        (indent ++ "return \x7b\"route\": " ++ firstRoute b ++ "\x7d") [] .code :=
      (says_indent.plain rfl rfl).quoted _ rfl rfl
    exact (saysLines_comment_indent (isFlat_returnNote b)).append hreturn.codeLine

/-- Behind its docstring a function of a node names no functions. -/
theorem saysLines_unitBody {q : PlannedNode} (h : IsName q.key) (branch : Option Branch) :
    vocabulary.SaysLines names ("" :: unitBody q branch) [] := by
  have htools : vocabulary.Says names .code (indent ++ "tools = " ++ listLiteral q.node.tools) []
      .code := (says_indent.plain rfl rfl).append (says_listLiteral _)
  have htodo : vocabulary.SaysLines names [indent ++ "# " ++ todoNote (title q)] [] :=
    saysLines_comment_indent (isFlat_todoNote (isFlat_title h))
  exact saysLines_blank.append ((htools.codeLine.append htodo).append (saysLines_result branch))

/-- A line in front of a docstring, and the indentation of it. -/
theorem says_joined_indent {line : String} {found : List Fact}
    (h : vocabulary.Says names .code line found .code) :
    vocabulary.Says names .code (joined [line, indent]) found .code := by
  have hnewline : vocabulary.Says names .code (line ++ "\n") found .code := h.plain rfl rfl
  have hall := hnewline.append says_indent
  rw [List.append_nil] at hall
  rw [joined_cons line (by simp), joined, String.intercalate_singleton]
  exact hall

theorem joined_append_newline {lines : List String} (h : lines ≠ []) :
    joined lines ++ "\n" = endLines lines := intercalate_eq_endLines h

/-- The header is a docstring and the imports. -/
theorem says_header {p : Plan} (hentry : IsPlainDoc (entryName p)) (project : String) :
    vocabulary.Says names .code (endLines (header p project)) [] .code := by
  have hafter : vocabulary.Says names .code (joined ("" :: imports p) ++ "\n") [] .code := by
    rw [joined_append_newline (by simp)]
    exact (saysLines_blank.append (saysLines_imports p)).ended
  rw [← joined_append_newline (by simp [header])]
  exact says_of_hasDocstring (hasDocstring_header hentry project) SaysLines.nil.ended hafter

/-- The function of a node defines its name and says nothing else. -/
theorem says_unit {q : PlannedNode} (hkey : IsName q.key) (hname : IsName name)
    (hmem : name ∈ names) (branch : Option Branch) :
    vocabulary.Says names .code (endLines (unit q name branch)) [.defines name] .code := by
  have hhead : vocabulary.Says names .code ("def " ++ name ++ "(state: FlowState) -> dict:")
      [.defines name] .code :=
    says_definition [] rfl rfl rfl hname (List.mem_append_right _ hmem) rfl rfl rfl
  have hafter : vocabulary.Says names .code (joined ("" :: unitBody q branch) ++ "\n") []
      .code := by
    rw [joined_append_newline (by simp)]
    exact (saysLines_unitBody hkey branch).ended
  rw [← joined_append_newline (by simp [unit])]
  exact says_of_hasDocstring (hasDocstring_unit q name branch) (says_joined_indent hhead) hafter

/-- The function that chooses a route defines its name; the routes are literals. -/
theorem says_router {b : Branch} (hsource : IsName b.source) (hname : IsName name)
    (hmem : name ∈ names) :
    vocabulary.Says names .code (endLines (router b name)) [.defines name] .code := by
  have hstart : vocabulary.Says names .code
      ("def " ++ name ++ "(state: FlowState) -> Literal[") [.defines name] .code :=
    says_definition [] rfl rfl rfl hname (List.mem_append_right _ hmem) rfl rfl rfl
  have hhead : vocabulary.Says names .code (routerHead b name) [.defines name] .code := by
    rw [routerHead, String.append_assoc, routeLiterals_eq_map]
    exact hstart.append (says_literals rfl rfl rfl rfl _)
  have hafter : vocabulary.Says names .code
      (joined ["", indent ++ "return state[\"route\"]"] ++ "\n") [] .code := by
    rw [joined_append_newline (by simp)]
    exact (saysLines_blank.append
      (SaysLines.indent (saysLines_plain rfl rfl))).ended
  rw [← joined_append_newline (by simp [router])]
  exact says_of_hasDocstring (hasDocstring_router (isPlainDoc_of_isNameChar hsource.chars) name)
    (says_joined_indent hhead) hafter

/-! ## Calls -/

/-- The lines of a call with a literal and a name as its first arguments. -/
theorem linesRead_call {first call : String} {cs : List Char} (key : String)
    (hs : first = String.ofList cs)
    (hfirst : vocabulary.lexis.run .code cs =
      (.code, [.word "graph".toList, .mark '.', .word call.toList, .mark '(']))
    (hname : IsName name) :
    vocabulary.lexis.LinesRead [first, indent ++ literal key ++ ",", indent ++ name ++ ","]
      ([.word "graph".toList, .mark '.'] ++ [.word call.toList, .mark '(',
        .literal (literal key).toList, .mark ',', .word name.toList, .mark ',']) := by
  have hline : ∀ {line : String} {toks : List Token}, vocabulary.lexis.Reads .code line toks .code →
      vocabulary.lexis.LineReads line toks :=
    fun h => ⟨_, _, h, rfl, List.append_nil _⟩
  have hindent : vocabulary.lexis.Reads .code indent [] .code := rfl
  have hliteral : ∀ raw, vocabulary.lexis.Reads (.closed raw) "," [.literal raw, .mark ','] .code :=
    fun _ => rfl
  have hword : ∀ cs, vocabulary.lexis.Reads (.word cs) "," [.word cs, .mark ','] .code :=
    fun _ => rfl
  have hcall : vocabulary.lexis.Reads .code first
      [.word "graph".toList, .mark '.', .word call.toList, .mark '('] .code := by
    rwa [Lexis.Reads, hs, String.toList_ofList]
  have hlines := Lexis.LinesRead.cons (hline hcall) (.cons
    (hline ((hindent.append (Lexis.reads_literal key)).append (hliteral _)))
    (.singleton (hline ((hindent.append (Lexis.reads_name hname)).append (hword _)))))
  exact hlines

/-- Metadata is written in literals only. -/
theorem says_metadata (q : PlannedNode) :
    vocabulary.Says names .code (metadata q) [] .code := by
  have htexts : vocabulary.Says names .code ("\x7b\"label\": " ++ literal q.node.label ++
      ", \"description\": " ++ literal q.node.description ++ ", \"roles\": ") [] .code :=
    ((says_plain rfl rfl).quoted _ rfl rfl).quoted _ rfl rfl
  exact (((htexts.append (says_listLiteral _)).plain rfl rfl).append
    (says_listLiteral q.node.tools)).plain rfl rfl

/-- The call attaches the function to the node. -/
theorem saysLines_addNode (hname : IsName name) (hmem : name ∈ names) (q : PlannedNode) :
    vocabulary.SaysLines names (addNode q name) [.node (literal q.key) name] := by
  have hcall : vocabulary.SaysLines names
      ["graph.add_node(", indent ++ literal q.key ++ ",", indent ++ name ++ ","]
      [.node (literal q.key) name] :=
    ⟨_, linesRead_call q.key rfl rfl hname,
      (tells_others (List.all_eq_true.1 rfl)).append (tells_nodeCall hmem (by decide))⟩
  have hmetadata : vocabulary.Says names .code (indent ++ "metadata=" ++ metadata q ++ ",") []
      .code := ((says_indent.plain rfl rfl).append (says_metadata q)).plain rfl rfl
  exact hcall.append (hmetadata.codeLine.append (saysLines_plain rfl rfl))

theorem saysLines_addEdge (edge : String × String) :
    vocabulary.SaysLines names [addEdge edge] [] :=
  Says.codeLine (((says_plain rfl rfl).quoted edge.1 rfl rfl).quoted edge.2 rfl rfl)

theorem saysLines_addSink (key : String) : vocabulary.SaysLines names [addSink key] [] :=
  Says.codeLine ((says_plain rfl rfl).quoted key rfl rfl)

/-- The call attaches the function to the branch; the routes are literals. -/
theorem saysLines_addBranch (hname : IsName name) (hmem : name ∈ names) (b : Branch) :
    vocabulary.SaysLines names (addBranch b name) [.branch (literal b.source) name] := by
  have hcall : vocabulary.SaysLines names
      ["graph.add_conditional_edges(", indent ++ literal b.source ++ ",", indent ++ name ++ ","]
      [.branch (literal b.source) name] :=
    ⟨_, linesRead_call b.source rfl rfl hname,
      (tells_others (List.all_eq_true.1 rfl)).append (tells_branchCall hmem (by decide))⟩
  -- keys that were renamed are in comments
  have hrenamed : vocabulary.SaysLines names
      (b.renamed.map fun key => indent ++ indent ++ "# " ++ renamedNote key) [] := by
    refine saysLines_map fun key _ => ?_
    exact ((says_indent.append says_indent).append says_commentStart).commentLine
      (isFlat_renamedNote key)
  have hroutes : vocabulary.SaysLines names
      (b.routes.map fun r => indent ++ indent ++ literal r.key ++ ": " ++ literal r.target ++ ",")
      [] := by
    refine saysLines_map fun r _ => Says.codeLine ?_
    exact ((says_indent.append says_indent).quoted r.key rfl rfl).quoted r.target rfl rfl
  have hopen : vocabulary.SaysLines names [indent ++ "\x7b"] [] :=
    SaysLines.indent (saysLines_plain rfl rfl)
  have hclose : vocabulary.SaysLines names [indent ++ "\x7d,", ")"] [] :=
    (SaysLines.indent (saysLines_plain rfl rfl)).append
      (saysLines_plain rfl rfl)
  exact saysLines_blank.append (hcall.append
    (((hopen.append hrenamed).append hroutes).append hclose))

/-! ## The builder -/

variable {p : Plan}

theorem saysLines_addEntry (p : Plan) : vocabulary.SaysLines names (addEntry p) [] := by
  rw [addEntry]
  cases p.entry with
  | none => exact .nil
  | some key =>
    have hnote : vocabulary.SaysLines names
        (if p.entryIsFallback then ["# " ++ fallbackNote] else []) [] := by
      split
      · exact saysLines_comment isFlat_fallbackNote
      · exact .nil
    have hedge : vocabulary.Says names .code ("graph.add_edge(START, " ++ literal key ++ ")") []
        .code := (says_plain rfl rfl).quoted key rfl rfl
    exact (saysLines_blank.append hnote).append hedge.codeLine

theorem saysLines_noteUnreachable (h : ∀ key ∈ p.unreachable, IsName key) :
    vocabulary.SaysLines names (noteUnreachable p) [] := by
  rw [noteUnreachable]
  split
  · exact .nil
  · exact saysLines_comment (isFlat_unreachableNote h)

/-- A blank line in front says nothing. -/
theorem saysLines_setOff {body : List String} (h : vocabulary.SaysLines names body []) :
    vocabulary.SaysLines names (setOff body) [] := by
  cases body with
  | nil => exact .nil
  | cons line rest => exact saysLines_blank.append h

/-- The statements attach the functions of the nodes, then those of the branches. -/
theorem saysLines_statements {functions : FunctionNames} (h : Legible p functions)
    (hunits : functions.units ⊆ names) (hrouters : functions.routers ⊆ names) :
    vocabulary.SaysLines names (statements p functions) (attachments p functions) := by
  have hstart : vocabulary.SaysLines names ["graph = StateGraph(FlowState)", ""] [] :=
    (saysLines_plain rfl rfl).append saysLines_blank
  have hempty : vocabulary.SaysLines names
      (if p.nodes.isEmpty then ["# graph has no nodes yet"] else []) [] := by
    split
    · exact saysLines_plain rfl rfl
    · exact .nil
  -- only these two parts say something
  have hnodes := SaysLines.flatMap_zip fun q (_ : q ∈ p.nodes) name hname =>
    saysLines_addNode (h.units name hname) (hunits hname) q
  have hbranches := SaysLines.flatMap_zip fun b (_ : b ∈ p.branches) name hname =>
    saysLines_addBranch (h.routers name hname) (hrouters hname) b
  have hedges : vocabulary.SaysLines names (setOff (p.edges.map addEdge)) [] :=
    saysLines_setOff (saysLines_map fun edge _ => saysLines_addEdge edge)
  have hsinks : vocabulary.SaysLines names (setOff (p.sinks.map addSink)) [] :=
    saysLines_setOff (saysLines_map fun key _ => saysLines_addSink key)
  have hend : vocabulary.SaysLines names ["", "return graph.compile()"] [] :=
    saysLines_blank.append (saysLines_plain rfl rfl)
  have hall := (((((((hstart.append hempty).append hnodes).append (saysLines_addEntry p)).append
    (saysLines_noteUnreachable h.unreachable)).append hedges).append hbranches).append
    hsinks).append hend
  simpa only [List.append_nil, List.nil_append, statements, attachments] using hall

theorem lineReads_bodyLine {line : String} {toks : List Token}
    (h : vocabulary.lexis.LineReads line toks) :
    vocabulary.lexis.LineReads (bodyLine line) toks := by
  rw [bodyLine]
  split
  · next hempty => rwa [hempty] at h
  · exact h.indent rfl

/-- The builder defines itself and attaches the functions of the plan. -/
theorem saysLines_wiring {functions : FunctionNames} (h : Legible p functions)
    (hunits : functions.units ⊆ names) (hrouters : functions.routers ⊆ names) :
    vocabulary.SaysLines names (wiring p functions)
      (.defines "build_graph" :: attachments p functions) := by
  have hname : IsName "build_graph" := ⟨⟨'b', rfl, rfl⟩, List.all_eq_true.1 rfl⟩
  have hhead : vocabulary.Says names .code ("def " ++ "build_graph" ++ "():")
      [.defines "build_graph"] .code :=
    says_definition [] rfl rfl rfl hname (List.mem_append_left _ (by decide)) rfl rfl rfl
  have hbody := (saysLines_statements h hunits hrouters).map fun _ _ => lineReads_bodyLine
  have hcall : vocabulary.SaysLines names ["", "", "app = build_graph()"] [] :=
    (saysLines_blank.append saysLines_blank).append (saysLines_plain rfl rfl)
  have hall := (hhead.codeLine.append hbody).append hcall
  rw [List.append_nil] at hall
  exact hall

end AgentFlow.Skeleton.Python
