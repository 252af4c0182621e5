import AgentFlow.Skeleton.Python
import AgentFlow.Proofs.Skeleton.Wiring

/-!
# Reading the builder of a Python program

A statement of the builder is one line or a block of lines: `graph.add_node(` and
`graph.add_conditional_edges(` open a block with one argument on each line, and the rows of a
routing table stand between braces.
-/

namespace AgentFlow.Skeleton.Python

open Text

variable {α : Type}

inductive Stage (α : Type) where
  | outside
  | header
  | statement
  | node (arguments : List (Argument α))
  | table (arguments : List (Argument α))
  | rows (source : α) (found : List (α × α))
  | tableEnd (source : α) (found : List (α × α))
  | returned
  | done

/-- The lines that may come next. -/
def Stage.rules : Stage α → List (Rule (Stage α) α)
  | .outside => [⟨[.text "def build_graph():"], fun _ => some (.header, [])⟩]
  | .header => [⟨[.text "graph = StateGraph(FlowState)"], fun _ => some (.statement, [])⟩]
  | .statement => [
      ⟨[.text "graph.add_node("], fun _ => some (.node [], [])⟩,
      ⟨[.text "graph.add_edge(", .argument, .text ", ", .argument, .text ")"],
        fun ends => (connect ends).map fun call => (.statement, [call])⟩,
      ⟨[.text "graph.add_conditional_edges("], fun _ => some (.table [], [])⟩,
      ⟨[.text "return graph.compile()"], fun _ => some (.returned, [])⟩]
  | .node arguments => [
      -- The metadata starts like a name, but with no comma behind it.
      ⟨[.argument, .text ","], fun found => some (.node (arguments ++ found), [])⟩,
      ⟨[.text "metadata=", .rest], fun _ => some (.node arguments, [])⟩,
      ⟨[.text ")"], fun _ => (attached arguments).map fun key => (.statement, [.node key])⟩]
  | .table arguments => [
      ⟨[.argument, .text ","], fun found => some (.table (arguments ++ found), [])⟩,
      ⟨[.text "\x7b"], fun _ => (attached arguments).map fun source => (.rows source [], [])⟩]
  | .rows source found => [
      ⟨[.argument, .text ": ", .argument, .text ","],
        fun ends => (row ends).map fun entry => (.rows source (found ++ [entry]), [])⟩,
      ⟨[.text "\x7d,"], fun _ => some (.tableEnd source found, [])⟩]
  | .tableEnd source found => [⟨[.text ")"], fun _ => some (.statement, [.table source found])⟩]
  | .returned => [⟨[.text "app = build_graph()"], fun _ => some (.done, [])⟩]
  | .done => []

def layout (decode : Decoder α) : Layout (Stage α) α where
  isComment line := line.head? = some '#'
  start := .outside
  isDone | .done => true | _ => false
  step stage line := applyRules decode stage.rules line

variable {decode : Decoder α} {denote : String → α} {stage : Stage α}

/-! ## Lines -/

/-- A line of code is read by the rules of the stage. -/
theorem readLine_code {c : Char} (hc : c ≠ ' ') (hnote : c ≠ '#') (cs : List Char) :
    (layout decode).readLine stage (c :: cs) = applyRules decode stage.rules (c :: cs) :=
  Layout.readLine_cons hc (by simpa [layout] using hnote)

/-- A comment is skipped. -/
theorem readLine_note (cs : List Char) :
    (layout decode).readLine stage ('#' :: cs) = some (stage, []) :=
  Layout.readLine_comment (by decide) rfl

/-- A literal starts a line of code, not a comment. -/
theorem readLine_literal (s : String) (rest : List Char) :
    (layout decode).readLine stage ((literal s).toList ++ rest) =
      applyRules decode stage.rules ((literal s).toList ++ rest) := by
  obtain ⟨cs, hcs⟩ := exists_literal_cons s
  rw [hcs]
  exact readLine_code (by decide) (by decide) _

/-- So does a name. -/
theorem readLine_name {name : String} (h : IsName name) (rest : List Char) :
    (layout decode).readLine stage (name.toList ++ rest) =
      applyRules decode stage.rules (name.toList ++ rest) := by
  obtain ⟨c, cs, hcs, hlower⟩ := h.exists_cons
  rw [hcs]
  refine readLine_code ?_ ?_ _ <;> (rintro rfl; cases hlower)

theorem reads_note {note : String} (h : '\n' ∉ note.toList) :
    (layout decode).Reads stage ["# " ++ note] stage [] := by
  refine .of_skipped ?_
  simp [Layout.IsLine, readLine_note, h]

/-! ## Nodes and edges -/

/-- The metadata of a node is one line. -/
theorem newline_notMem_metadata (p : PlannedNode) : '\n' ∉ (metadata p).toList := by
  unfold metadata
  simp [newline_notMem_literal, newline_notMem_listLiteral]

/-- The lines of the call come as one call, with the key that the first argument denotes. -/
theorem reads_addNode (h : Decodes decode denote) (p : PlannedNode) {name : String}
    (hname : IsName name) :
    (layout decode).Reads .statement (addNode p name) .statement [.node (denote p.key)] := by
  constructor
  case isLine =>
    simp [addNode, indent, Layout.IsLine, newline_notMem_literal, hname.newline_notMem,
      newline_notMem_metadata]
  case readLines_eq =>
    simp [addNode, indent, Layout.readLines, readLine_code, readLine_literal, readLine_name hname,
      Stage.rules, scan_literal h, scan_name hname (c := ',') rfl,
      scan_other (c := ')') (by decide) rfl, List.isPrefixOf?, attached]

theorem reads_addEdge (h : Decodes decode denote) (edge : String × String) :
    (layout decode).Reads .statement [addEdge edge] .statement
      [.edge (denote edge.1) (denote edge.2)] := by
  unfold addEdge
  constructor
  case isLine => simp [Layout.IsLine, newline_notMem_literal]
  case readLines_eq =>
    simp [Layout.readLines, readLine_code, Stage.rules, scan_literal h, List.isPrefixOf?, connect]

/-- An edge to `END` has a rule of its own in `connect`. -/
theorem reads_addSink (h : Decodes decode denote) (key : String) :
    (layout decode).Reads .statement [addSink key] .statement [.sink (denote key)] := by
  unfold addSink
  constructor
  case isLine => simp [Layout.IsLine, newline_notMem_literal]
  case readLines_eq =>
    simp [Layout.readLines, readLine_code, Stage.rules, scan_literal h, List.isPrefixOf?, connect]

/-! ## Branches -/

theorem reads_branchStart (h : Decodes decode denote) (source : String) {name : String}
    (hname : IsName name) :
    (layout decode).Reads .statement
      ["", "graph.add_conditional_edges(", indent ++ literal source ++ ",", indent ++ name ++ ",",
        indent ++ "\x7b"] (.rows (denote source) []) [] := by
  constructor
  case isLine => simp [Layout.IsLine, indent, newline_notMem_literal, hname.newline_notMem]
  case readLines_eq =>
    simp [indent, Layout.readLines, readLine_code, readLine_literal, readLine_name hname,
      Stage.rules, scan_literal h, scan_name hname (c := ',') rfl,
      scan_other (c := '\x7b') (by decide) rfl, List.isPrefixOf?, attached]

/-- Comments between the rows of a table are skipped. -/
theorem reads_renamed (keys : List String) :
    (layout decode).Reads stage (keys.map fun key => indent ++ indent ++ "# " ++ renamedNote key)
      stage [] := by
  refine .of_skipped ?_
  simp [Layout.IsLine, indent, readLine_note, newline_notMem_renamedNote]

/-- Each row is added to the rows found so far. -/
theorem reads_routes (h : Decodes decode denote) (source : α) (routes : List Route) :
    (layout decode).Reads (.rows source [])
      (routes.map fun r => indent ++ indent ++ literal r.key ++ ": " ++ literal r.target ++ ",")
      (.rows source (routes.map fun r => (denote r.key, denote r.target))) [] := by
  refine .found (fun r found => ?_) []
  constructor
  case isLine => simp [Layout.IsLine, indent, newline_notMem_literal]
  case readLines_eq =>
    simp [indent, Layout.readLines, readLine_literal, Stage.rules, scan_literal h,
      List.isPrefixOf?, row]

theorem reads_branchEnd (source : α) (rows : List (α × α)) :
    (layout decode).Reads (.rows source rows) [indent ++ "\x7d,", ")"] .statement
      [.table source rows] := by
  constructor
  case isLine => simp [Layout.IsLine, indent]
  case readLines_eq =>
    simp [indent, Layout.readLines, readLine_code, Stage.rules,
      scan_other (c := '\x7d') (by decide) rfl, List.isPrefixOf?]

/-- The lines of a branch come as one table. -/
theorem reads_addBranch (h : Decodes decode denote) (b : Branch) {name : String}
    (hname : IsName name) :
    (layout decode).Reads .statement (addBranch b name) .statement
      [.table (denote b.source) (b.rows.map (Prod.map denote denote))] := by
  have hstart := (reads_branchStart h b.source hname).append (reads_renamed b.renamed)
  have hrows := hstart.append (reads_routes h (denote b.source) b.routes)
  rw [Branch.rows, List.map_map]
  exact hrows.append (reads_branchEnd (denote b.source) _)

/-! ## The builder -/

/-- Whether the entry is a fallback is only in a comment. -/
theorem reads_addEntry (h : Decodes decode denote) (p : Plan) :
    (layout decode).Reads .statement (addEntry p) .statement
      (p.entry.toList.map fun key => .entry (denote key)) := by
  unfold addEntry
  cases p.entry with
  | none => exact .nil
  | some key =>
    have hnote : (layout decode).Reads .statement
        (if p.entryIsFallback then ["# " ++ fallbackNote] else []) .statement [] := by
      split
      · exact reads_note newline_notMem_fallbackNote
      · exact .nil
    refine (Layout.Reads.blank.append hnote).append ⟨?_, ?_⟩
    · simp [Layout.IsLine, newline_notMem_literal]
    · simp [Layout.readLines, readLine_code, Stage.rules, scan_literal h, List.isPrefixOf?,
        connect]

theorem reads_noteUnreachable {p : Plan} (h : ∀ key ∈ p.unreachable, IsName key) :
    (layout decode).Reads .statement (noteUnreachable p) .statement [] := by
  unfold noteUnreachable
  split
  · exact .nil
  · exact reads_note (newline_notMem_unreachableNote h)

theorem reads_setOff {body : List String} {calls : List (Call α)}
    (h : (layout decode).Reads .statement body .statement calls) :
    (layout decode).Reads .statement (setOff body) .statement calls := by
  cases body with
  | nil => exact h
  | cons line rest => exact Layout.Reads.blank.append h

/-- The statements make the calls of the plan, in their order. -/
theorem reads_statements (h : Decodes decode denote) {p : Plan} {names : FunctionNames}
    (hlegible : Legible p names) :
    (layout decode).Reads .header (statements p names) .returned (p.calls denote) := by
  have hstart : (layout decode).Reads .header (["graph = StateGraph(FlowState)", ""] ++
      if p.nodes.isEmpty then ["# graph has no nodes yet"] else []) .statement [] := by
    split <;> constructor <;>
      simp [Layout.IsLine, Layout.readLines, readLine_code, readLine_note, Stage.rules,
        List.isPrefixOf?]
  -- nodes and branches come with the names of their functions
  have hnodes := Layout.Reads.flatMap_zip hlegible.length_units hlegible.units
    fun q _ name hname => reads_addNode h q hname
  have hbranches := Layout.Reads.flatMap_zip hlegible.length_routers hlegible.routers
    fun b _ name hname => reads_addBranch h b hname
  have hedges := reads_setOff
    (Layout.Reads.map_lines fun edge (_ : edge ∈ p.edges) => reads_addEdge h edge)
  have hsinks := reads_setOff
    (Layout.Reads.map_lines fun key (_ : key ∈ p.sinks) => reads_addSink h key)
  have hend : (layout decode).Reads .statement ["", "return graph.compile()"] .returned [] := by
    constructor <;>
      simp [Layout.IsLine, Layout.readLines, readLine_code, Stage.rules, List.isPrefixOf?]
  -- Only what comes first and what comes last change the stage.
  have hall := ((((((hstart.append hnodes).append (reads_addEntry h p)).append
    (reads_noteUnreachable hlegible.unreachable)).append hedges).append hbranches).append
    hsinks).append hend
  rw [List.nil_append, List.append_nil, List.append_nil] at hall
  exact hall

theorem isLine_bodyLine {line : String} (h : Layout.IsLine line) :
    Layout.IsLine (bodyLine line) := by
  unfold bodyLine
  split
  · simp [Layout.IsLine]
  · simpa [Layout.IsLine, indent] using h

/-- Indentation is all that a body adds to its lines. -/
theorem unindent_bodyLine (line : String) :
    unindent (bodyLine line).toList = unindent line.toList := by
  unfold bodyLine
  split
  · next h => rw [h]
  · simp [unindent, indent]

/-- An indented line starts no builder. -/
theorem isFirst_bodyLine (line : String) :
    (layout decode).isFirst (bodyLine line).toList = false := by
  unfold bodyLine
  split <;> simp [Layout.isFirst, layout, indent, Stage.rules, List.isPrefixOf?]

/-- **The program of a plan builds the graph of the plan.** -/
theorem read_render (h : Decodes decode denote) {p : Plan}
    (hlegible : Legible p (dialect.functionNames p)) (project : String) :
    (layout decode).read (dialect.render p project) = some (p.wiring.map denote) := by
  obtain ⟨before, hsections⟩ := exists_sections_eq dialect p project
  have hstart : (layout decode).Reads .outside ["def build_graph():"] .header [] := by
    constructor <;>
      simp [Layout.IsLine, Layout.readLines, readLine_code, Stage.rules, List.isPrefixOf?]
  have hbody := (reads_statements h hlegible).indent (fun _ => isLine_bodyLine) unindent_bodyLine
  have hend : (layout decode).Reads .returned ["", "", "app = build_graph()"] .done [] := by
    constructor <;>
      simp [Layout.IsLine, Layout.readLines, readLine_code, Stage.rules, List.isPrefixOf?]
  have hall := (hstart.append hbody).append hend
  rw [List.nil_append, List.append_nil] at hall
  rw [← Plan.ofCalls_calls]
  refine Layout.read_eq_of_reads hsections ?first ?later rfl hall rfl
  case first => simp [Layout.isFirst, layout, Stage.rules, List.isPrefixOf?]
  case later =>
    -- A builder starts without indentation, and statements are indented.
    intro line hline
    rcases List.mem_append.1 hline with hline | hline
    · obtain ⟨statement, -, rfl⟩ := List.mem_map.1 hline
      exact isFirst_bodyLine statement
    · simp only [List.mem_cons, List.not_mem_nil, or_false] at hline
      rcases hline with rfl | rfl | rfl <;>
        simp [Layout.isFirst, layout, Stage.rules, List.isPrefixOf?]

end AgentFlow.Skeleton.Python
