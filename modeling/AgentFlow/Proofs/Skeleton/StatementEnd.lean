import AgentFlow.Proofs.Skeleton.Outline

/-!
# Where the chain of calls ends

The semicolon of the chain is put behind its last line, whatever that is, and comments stand between
the calls. Yet it is never put into a comment: every node of a plan is a sink or the source of an
edge or of a branch, and so a call comes last (`exists_statement_eq`). A reader of the program is in
code where the semicolon stands (`semicolon_of_plan`).
-/

namespace AgentFlow

open Skeleton

variable {nodes : List Node} {edges : List Edge} {entryId : Option String} {p : Plan}

/-! ## Plans with and without nodes -/

namespace Plan

/-- Planning permutes the nodes. -/
theorem Parts.nodes_eq_nil_iff (h : Parts nodes edges entryId p) : p.nodes = [] ↔ nodes = [] := by
  have hlength := h.ids_perm.length_eq
  rw [ids, nodeIds, List.length_map, List.length_map] at hlength
  rw [← List.length_eq_zero_iff, hlength, List.length_eq_zero_iff]

/-- Every node is a sink, or the source of an edge or of a branch. -/
theorem Parts.ne_nil_of_nodes (h : Parts nodes edges entryId p) (hne : p.nodes ≠ []) :
    p.edges ≠ [] ∨ p.branches ≠ [] ∨ p.sinks ≠ [] := by
  obtain ⟨n, hn⟩ := List.exists_mem_of_ne_nil nodes fun hnil => hne (h.nodes_eq_nil_iff.2 hnil)
  exact h.ne_nil_of_mem (List.mem_map_of_mem hn)

/-- Without nodes there is nothing to emit. -/
theorem eq_empty_of_plan (h : plan [] edges entryId = .ok p) :
    p = ⟨[], none, false, [], [], [], []⟩ := by
  obtain ⟨hintact, rfl⟩ := plan_eq_ok_iff_assemble.1 h
  have hplanned : plannedNodes [] edges = [] :=
    (plannedNodes_perm edges hintact.nodup_ids).eq_nil
  rw [hplanned]
  rfl

end Plan

namespace Skeleton.TypeScript

open Text

variable {names : FunctionNames} {last : String}

/-! ## The last line -/

/-- A line with which the chain of calls can end: the call that connects a sink to the end, the line
that closes the routing table of a branch, the call for a plain edge, or, if there are no nodes, the
line that the chain starts with. -/
inductive StatementEnd (p : Plan) (names : FunctionNames) : String → Prop where
  | sink {key : String} (h : key ∈ p.sinks) : StatementEnd p names (indent ++ addSink key)
  | table {front : List String} {b : Branch} {name : String}
      (h : (b, name) ∈ p.branches.zip names.routers)
      (hcalls : calls p names = front ++ addBranch b name) :
      StatementEnd p names (indent ++ "\x7d)")
  | edge {edge : String × String} (h : edge ∈ p.edges) :
      StatementEnd p names (indent ++ addEdge edge)
  | start (h : p.nodes = []) : StatementEnd p names "const workflow = new StateGraph(FlowState)"

/-- None of these lines starts with two slashes. -/
theorem StatementEnd.isCode (h : StatementEnd p names last) : IsCode last := by
  cases h with
  | sink => exact isCode_indent (isCode_addSink _)
  | table => simp [IsCode, unindent, indent]
  | edge => exact isCode_indent (isCode_addEdge _)
  | start => simp [IsCode, unindent]

theorem StatementEnd.newline_notMem (h : StatementEnd p names last) : '\n' ∉ last.toList := by
  cases h with
  | sink => simp [indent, addSink, newline_notMem_literal]
  | table => decide
  | edge => simp [indent, addEdge, newline_notMem_literal]
  | start => decide

theorem Alike.scans {s t : String} (h : Alike s t) : ∃ pieces, Scans .code s pieces .code := by
  obtain ⟨pieces, _, hscans, -⟩ := h
  exact ⟨pieces, hscans⟩

/-- A reader that comes to such a line in code leaves it in code. -/
theorem StatementEnd.scans (h : StatementEnd p names last) :
    ∃ pieces, Scans .code last pieces .code := by
  cases h with
  | @sink key =>
    have hcall : Alike (addSink key) (addSink key) :=
      ((alike_plain rfl).append (alike_literal key key)).plain rfl
    exact ((alike_plain rfl).append hcall).scans
  | table => exact (alike_plain rfl).scans
  | @edge e =>
    have hcall : Alike (addEdge e) (addEdge e) :=
      ((((alike_plain rfl).append (alike_literal e.1 e.1)).plain rfl).append
        (alike_literal e.2 e.2)).plain rfl
    exact ((alike_plain rfl).append hcall).scans
  | start => exact (alike_plain rfl).scans

/-! ## The last call -/

theorem branches_eq_nil_of_zip (hlength : names.routers.length = p.branches.length)
    (hzip : p.branches.zip names.routers = []) : p.branches = [] := by
  rcases List.zip_eq_nil_iff.1 hzip with hnil | hnil
  · exact hnil
  · rwa [hnil, List.length_nil, eq_comm, List.length_eq_zero_iff] at hlength

/-- The sinks come last. -/
theorem suffix_calls_of_sinks : p.sinks.map addSink <:+ calls p names := List.suffix_append _ _

/-- Without sinks, the routing tables do. -/
theorem suffix_calls_of_branches (hsinks : p.sinks = []) :
    (p.branches.zip names.routers).flatMap (fun (b, name) => addBranch b name) <:+
      calls p names := by
  rw [calls, hsinks, List.map_nil, List.append_nil]
  exact List.suffix_append _ _

/-- Without sinks and tables, the plain edges do. -/
theorem suffix_calls_of_edges (hsinks : p.sinks = []) (hbranches : p.branches = []) :
    p.edges.map addEdge <:+ calls p names := by
  rw [calls, hsinks, hbranches, List.map_nil, List.append_nil, List.zip_nil_left, List.flatMap_nil,
    List.append_nil]
  exact List.suffix_append _ _

/-- A sink comes last, or else the end of a routing table, or else an edge. -/
theorem exists_calls_eq (hlength : names.routers.length = p.branches.length)
    (hne : p.edges ≠ [] ∨ p.branches ≠ [] ∨ p.sinks ≠ []) :
    ∃ front call, calls p names = front ++ [call] ∧ StatementEnd p names (indent ++ call) := by
  rcases List.eq_nil_or_concat' p.sinks with hsinks | ⟨sinks, key, hsinks⟩
  case inr =>
    have hsuffix : [key].map addSink <:+ p.sinks.map addSink := .map addSink ⟨sinks, hsinks.symm⟩
    obtain ⟨front, hcalls⟩ := hsuffix.trans suffix_calls_of_sinks
    exact ⟨front, addSink key, hcalls.symm, .sink (by simp [hsinks])⟩
  rcases List.eq_nil_or_concat' (p.branches.zip names.routers) with
    hzip | ⟨pairs, ⟨b, name⟩, hzip⟩
  case inr =>
    -- the table of the last branch ends in the line that closes it
    have hsuffix : _ <:+ calls p names := suffix_calls_of_branches hsinks
    rw [hzip, List.flatMap_append, List.flatMap_singleton] at hsuffix
    have htable : addBranch b name <:+ calls p names := (List.suffix_append _ _).trans hsuffix
    have hclose : ["\x7d)"] <:+ addBranch b name := List.suffix_append _ _
    obtain ⟨front, hcalls⟩ := hclose.trans htable
    obtain ⟨before, hbefore⟩ := htable
    exact ⟨front, "\x7d)", hcalls.symm, .table (by simp [hzip]) hbefore.symm⟩
  have hbranches : p.branches = [] := branches_eq_nil_of_zip hlength hzip
  rcases List.eq_nil_or_concat' p.edges with hedges | ⟨edges, edge, hedges⟩
  case inr =>
    have hsuffix : [edge].map addEdge <:+ p.edges.map addEdge := .map addEdge ⟨edges, hedges.symm⟩
    obtain ⟨front, hcalls⟩ := hsuffix.trans (suffix_calls_of_edges hsinks hbranches)
    exact ⟨front, addEdge edge, hcalls.symm, .edge (by simp [hedges])⟩
  exact absurd hne (by simp [hedges, hbranches, hsinks])

/-- Without nodes, the chain has no calls. -/
theorem calls_of_plan_nil (h : plan [] edges entryId = .ok p) : calls p names = [] := by
  rw [Plan.eq_empty_of_plan h]
  rfl

/-- The last line of the chain is that of its last call, or the first one if there are no calls. -/
theorem exists_statement_eq (h : plan nodes edges entryId = .ok p)
    (hlength : names.routers.length = p.branches.length) :
    ∃ before last, statement p names = before ++ [last] ∧ StatementEnd p names last := by
  have hparts : Plan.Parts nodes edges entryId p := Plan.parts_of_plan h
  by_cases hnodes : p.nodes = []
  · obtain rfl := hparts.nodes_eq_nil_iff.1 hnodes
    exact ⟨[], _, by rw [statement, calls_of_plan_nil h]; rfl, .start hnodes⟩
  · obtain ⟨front, call, hcalls, hend⟩ :=
      exists_calls_eq hlength (hparts.ne_nil_of_nodes hnodes)
    refine ⟨"const workflow = new StateGraph(FlowState)" :: front.map (indent ++ ·), indent ++ call,
      ?_, hend⟩
    rw [statement, hcalls, List.map_append]
    rfl

/-- The semicolon is put behind the last line. -/
theorem terminated_append_singleton (lines : List String) (line : String) :
    terminated (lines ++ [line]) = lines ++ [line ++ ";"] := by
  induction lines with
  | nil => rfl
  | cons first rest ih =>
    have hne : rest ++ [line] ≠ [] := by simp
    rw [List.cons_append, terminated, ih]
    · rfl
    · exact hne

/-! ## The semicolon -/

def exportLines : List String := ["", "export const app = workflow.compile();"]

/-- If a reader is in code behind some text, the semicolon there is code. -/
theorem scan_semicolon {s : String} {pieces : List Piece} (h : Scans .code s pieces .code) :
    ∃ more, scan (s ++ (";\n" ++ endLines exportLines)) = some (pieces ++ .code ';' :: more) := by
  have hchars : (";\n" ++ endLines exportLines).toList.all isPlainChar = true := by decide
  have hplain : Scans .code (";\n" ++ endLines exportLines)
      (.code ';' :: ("\n" ++ endLines exportLines).toList.map .code) .code := run_plain hchars
  exact ⟨_, scan_eq_some_iff.2 (h.append hplain)⟩

/-- **The chain of calls ends outside of comments.** The semicolon is put behind a complete call for
a sink or for a plain edge, behind the end of a routing table, or, only if there are no nodes,
behind the line that the chain starts with. The line is no comment, and a reader of the lines is in
code where the semicolon stands. -/
theorem semicolon_of_plan (h : plan nodes edges entryId = .ok p) :
    (p.nodes = [] ↔ nodes = []) ∧
    (p.nodes ≠ [] → p.edges ≠ [] ∨ p.branches ≠ [] ∨ p.sinks ≠ []) ∧
    ∃ before last, emptyNote p ++ statement p (dialect.functionNames p) = before ++ [last] ∧
      wiring p (dialect.functionNames p) = before ++ [last ++ ";"] ++ exportLines ∧
      StatementEnd p (dialect.functionNames p) last ∧ IsCode last ∧ '\n' ∉ last.toList ∧
      ∃ pieces more, Scans .code (endLines before ++ last) pieces .code ∧
        scan (endLines (wiring p (dialect.functionNames p))) =
          some (pieces ++ .code ';' :: more) := by
  have hparts : Plan.Parts nodes edges entryId p := Plan.parts_of_plan h
  have hlegible : Legible p (dialect.functionNames p) := Target.typescript.legible h
  obtain ⟨lines, last, hlines, hend⟩ := exists_statement_eq h hlegible.length_routers
  have hall : emptyNote p ++ statement p (dialect.functionNames p) =
      (emptyNote p ++ lines) ++ [last] := by rw [hlines, List.append_assoc]
  have hwiring : wiring p (dialect.functionNames p) =
      (emptyNote p ++ lines) ++ [last ++ ";"] ++ exportLines := by
    rw [wiring_eq, hlines, terminated_append_singleton, ← List.append_assoc]
    rfl
  -- The lines before the last one end outside of comments, as every line does.
  obtain ⟨front, hfront⟩ : ∃ front, Scans .code (endLines (emptyNote p ++ lines)) front .code := by
    have hsame := (linesAlike_emptyNote p).append (linesAlike_statement hlegible)
    rw [hall] at hsame
    obtain ⟨_, _, -, hbefore, -⟩ := exists_append_of_forall₂ hsame
    exact (LinesAlike.alike hbefore).scans
  obtain ⟨back, hback⟩ := hend.scans
  have hscans := hfront.append hback
  obtain ⟨more, hmore⟩ := scan_semicolon hscans
  refine ⟨hparts.nodes_eq_nil_iff, hparts.ne_nil_of_nodes, _, last, hall, hwiring, hend,
    hend.isCode, hend.newline_notMem, _, more, hscans, ?_⟩
  rw [← hmore, hwiring, endLines_append, endLines_append, endLines, endLines]
  simp only [String.append_assoc, String.append_empty]
  rfl

/-- Two nodes that each lead to themselves only: the entry is a fallback, the other node cannot be
reached, and the flow does not end. So there are comments in the chain, and an edge ends it. -/
theorem semicolon_of_plan_loops : ∃ p,
    plan [{ id := "a", roles := [.agent] }, { id := "b", roles := [.agent] }]
      [{ source := "a", target := "a" }, { source := "b", target := "b" }] none = .ok p ∧
    p.entryIsFallback = true ∧ p.unreachable = ["node_2"] ∧ p.sinks = [] ∧ p.branches = [] ∧
    ∃ before last, wiring p (dialect.functionNames p) = before ++ [last ++ ";"] ++ exportLines ∧
      StatementEnd p (dialect.functionNames p) last ∧ IsCode last := by
  have hplan : ∃ p,
      plan [{ id := "a", roles := [.agent] }, { id := "b", roles := [.agent] }]
        [{ source := "a", target := "a" }, { source := "b", target := "b" }] none = .ok p ∧
      p.entryIsFallback = true ∧ p.unreachable = ["node_2"] ∧ p.sinks = [] ∧ p.branches = [] :=
    ⟨_, rfl, by decide +kernel⟩
  obtain ⟨p, h, hfallback, hunreachable, hsinks, hbranches⟩ := hplan
  obtain ⟨-, -, before, last, -, hwiring, hend, hcode, -⟩ := semicolon_of_plan h
  exact ⟨p, h, hfallback, hunreachable, hsinks, hbranches, before, last, hwiring, hend, hcode⟩

end Skeleton.TypeScript

end AgentFlow
