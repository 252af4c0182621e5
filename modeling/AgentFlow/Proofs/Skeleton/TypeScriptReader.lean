import AgentFlow.Skeleton.TypeScript
import AgentFlow.Proofs.Skeleton.Wiring

/-!
# Reading the builder of a TypeScript program

The builder is one chain of calls, each on a line of its own; only the rows of a routing table stand
on lines between. A semicolon ends the chain, and so no comment may stand at its end.
-/

namespace AgentFlow.Skeleton.TypeScript

open Text

variable {α : Type}

inductive Stage (α : Type) where
  | outside
  | chain
  | rows (source : α) (found : List (α × α))
  | ended
  | exported
  | done

/-- The lines that may come next, without a semicolon. -/
def Stage.rules : Stage α → List (Rule (Stage α) α)
  | .outside => [⟨[.text "const workflow = new StateGraph(FlowState)"], fun _ => some (.chain, [])⟩]
  | .chain => [
      ⟨[.text ".addNode(", .argument, .text ", ", .argument, .text ")"],
        fun found => (attached found).map fun key => (.chain, [.node key])⟩,
      ⟨[.text ".addEdge(", .argument, .text ", ", .argument, .text ")"],
        fun ends => (connect ends).map fun call => (.chain, [call])⟩,
      ⟨[.text ".addConditionalEdges(", .argument, .text ", ", .argument, .text ", \x7b"],
        fun found => (attached found).map fun source => (.rows source [], [])⟩]
  | .rows source found => [
      ⟨[.argument, .text ": ", .argument, .text ","],
        fun ends => (row ends).map fun entry => (.rows source (found ++ [entry]), [])⟩,
      ⟨[.text "\x7d)"], fun _ => some (.chain, [.table source found])⟩]
  | .ended => [⟨[.text "export const app = workflow.compile()"], fun _ => some (.exported, [])⟩]
  | .exported => []
  | .done => []

/-- The stage behind a semicolon. -/
def Stage.behind : Stage α → Option (Stage α)
  | .chain => some .ended
  | .exported => some .done
  | _ => none

def step (decode : Decoder α) (stage : Stage α) (line : List Char) :
    Option (Stage α × List (Call α)) :=
  if line.getLast? = some ';' then
    (applyRules decode stage.rules line.dropLast).bind fun (next, calls) =>
      next.behind.map fun next => (next, calls)
  else applyRules decode stage.rules line

def layout (decode : Decoder α) : Layout (Stage α) α where
  isComment line := "//".toList.isPrefixOf line
  start := .outside
  isDone | .done => true | _ => false
  step := step decode

variable {decode : Decoder α} {denote : String → α} {stage : Stage α}

/-! ## Lines -/

/-- A line of code is read by the rules of the stage. -/
theorem readLine_code {c : Char} (hc : c ≠ ' ') (hslash : c ≠ '/') (cs : List Char) :
    (layout decode).readLine stage (c :: cs) = step decode stage (c :: cs) :=
  Layout.readLine_cons hc (by simp [layout, List.isPrefixOf, Ne.symm hslash])

/-- A comment is skipped. -/
theorem readLine_note (cs : List Char) :
    (layout decode).readLine stage ('/' :: '/' :: cs) = some (stage, []) :=
  Layout.readLine_comment (by decide) (by simp [layout])

/-- A literal starts a line of code, not a comment. -/
theorem readLine_literal (s : String) (rest : List Char) :
    (layout decode).readLine stage ((literal s).toList ++ rest) =
      step decode stage ((literal s).toList ++ rest) := by
  obtain ⟨cs, hcs⟩ := exists_literal_cons s
  rw [hcs]
  exact readLine_code (by decide) (by decide) _

theorem reads_note {note : String} (h : '\n' ∉ note.toList) :
    (layout decode).Reads stage ["// " ++ note] stage [] := by
  refine .of_skipped ?_
  simp [Layout.IsLine, readLine_note, h]

/-! ## Nodes and edges -/

/-- The name of the function is an argument too, and is not kept. -/
theorem reads_addNode (h : Decodes decode denote) (p : PlannedNode) {name : String}
    (hname : IsName name) :
    (layout decode).Reads .chain [addNode p name] .chain [.node (denote p.key)] := by
  unfold addNode
  constructor
  case isLine => simp [Layout.IsLine, newline_notMem_literal, hname.newline_notMem]
  case readLines_eq =>
    simp [Layout.readLines, readLine_code, step, Stage.rules, scan_literal h,
      scan_name hname (c := ')') rfl, List.getLast?_cons, List.isPrefixOf?, attached]

theorem reads_addEdge (h : Decodes decode denote) (edge : String × String) :
    (layout decode).Reads .chain [addEdge edge] .chain [.edge (denote edge.1) (denote edge.2)] := by
  unfold addEdge
  constructor
  case isLine => simp [Layout.IsLine, newline_notMem_literal]
  case readLines_eq =>
    simp [Layout.readLines, readLine_code, step, Stage.rules, scan_literal h, List.getLast?_cons,
      List.isPrefixOf?, connect]

/-- An edge to `END` has a rule of its own in `connect`. -/
theorem reads_addSink (h : Decodes decode denote) (key : String) :
    (layout decode).Reads .chain [addSink key] .chain [.sink (denote key)] := by
  unfold addSink
  constructor
  case isLine => simp [Layout.IsLine, newline_notMem_literal]
  case readLines_eq =>
    simp [Layout.readLines, readLine_code, step, Stage.rules, scan_literal h, List.getLast?_cons,
      List.isPrefixOf?, connect]

/-! ## Branches -/

theorem reads_branchStart (h : Decodes decode denote) (source : String) {name : String}
    (hname : IsName name) :
    (layout decode).Reads .chain
      [".addConditionalEdges(" ++ literal source ++ ", " ++ name ++ ", \x7b"]
      (.rows (denote source) []) [] := by
  constructor
  case isLine => simp [Layout.IsLine, newline_notMem_literal, hname.newline_notMem]
  case readLines_eq =>
    simp [Layout.readLines, readLine_code, step, Stage.rules, scan_literal h,
      scan_name hname (c := ',') rfl, List.getLast?_cons, List.isPrefixOf?, attached]

/-- Comments between the rows of a table are skipped. -/
theorem reads_renamed (keys : List String) :
    (layout decode).Reads stage (keys.map fun key => indent ++ "// " ++ renamedNote key)
      stage [] := by
  refine .of_skipped ?_
  simp [Layout.IsLine, indent, readLine_note, newline_notMem_renamedNote]

/-- Each row is added to the rows found so far. -/
theorem reads_routes (h : Decodes decode denote) (source : α) (routes : List Route) :
    (layout decode).Reads (.rows source [])
      (routes.map fun r => indent ++ literal r.key ++ ": " ++ literal r.target ++ ",")
      (.rows source (routes.map fun r => (denote r.key, denote r.target))) [] := by
  refine .found (fun r found => ?_) []
  constructor
  case isLine => simp [Layout.IsLine, indent, newline_notMem_literal]
  case readLines_eq =>
    simp [indent, Layout.readLines, readLine_literal, step, Stage.rules, scan_literal h,
      List.getLast?_cons, List.isPrefixOf?, row]

theorem reads_branchEnd (source : α) (rows : List (α × α)) :
    (layout decode).Reads (.rows source rows) ["\x7d)"] .chain [.table source rows] := by
  constructor
  case isLine => simp [Layout.IsLine]
  case readLines_eq =>
    simp [Layout.readLines, readLine_code, step, Stage.rules,
      scan_other (c := '\x7d') (by decide) rfl, List.getLast?_cons, List.isPrefixOf?]

/-- The lines of a branch come as one table. -/
theorem reads_addBranch (h : Decodes decode denote) (b : Branch) {name : String}
    (hname : IsName name) :
    (layout decode).Reads .chain (addBranch b name) .chain
      [.table (denote b.source) (b.rows.map (Prod.map denote denote))] := by
  have hstart := (reads_branchStart h b.source hname).append (reads_renamed b.renamed)
  have hrows := hstart.append (reads_routes h (denote b.source) b.routes)
  rw [Branch.rows, List.map_map]
  exact hrows.append (reads_branchEnd (denote b.source) _)

/-! ## The semicolon at the end -/

/-- The chain does not go on behind a semicolon. -/
theorem behind_ne_chain (next : Stage α) : next.behind ≠ some .chain := by
  cases next <;> simp [Stage.behind]

/-- Where a line leads back to the chain, a semicolon behind it leads out of it. -/
theorem step_semicolon {line : List Char} {calls : List (Call α)}
    (h : step decode stage line = some (.chain, calls)) :
    step decode stage (line ++ [';']) = some (.ended, calls) := by
  -- The line has no semicolon yet: none leads back to the chain.
  have hrules : applyRules decode stage.rules line = some (.chain, calls) := by
    rw [step] at h
    split at h
    · obtain ⟨⟨next, found⟩, -, hbehind⟩ := Option.bind_eq_some_iff.1 h
      obtain ⟨next', hnext, heq⟩ := Option.map_eq_some_iff.1 hbehind
      cases heq
      exact absurd hnext (behind_ne_chain next)
    · exact h
  simp [step, hrules, Stage.behind]

/-- What starts the line, apart from its indentation, starts no comment. -/
def IsCode (line : String) : Prop := ∃ c, (unindent line.toList).head? = some c ∧ c ≠ '/'

/-- The same goes for a line with its indentation. -/
theorem readLine_semicolon {line : String} (hcode : IsCode line) {calls : List (Call α)}
    (h : (layout decode).readLine stage line.toList = some (.chain, calls)) :
    (layout decode).readLine stage (line ++ ";").toList = some (.ended, calls) := by
  obtain ⟨c, hhead, hslash⟩ := hcode
  obtain ⟨cs, hcs⟩ := List.head?_eq_some_iff.1 hhead
  -- both lines start alike, so both are read as code
  have hread : ∀ {text rest : List Char}, unindent text = c :: rest →
      (layout decode).readLine stage text = step decode stage (c :: rest) := by
    intro text rest htext
    have hcomment : (layout decode).isComment (c :: rest) = false := by
      simp [layout, List.isPrefixOf, Ne.symm hslash]
    rw [Layout.readLine, Layout.isSkipped, htext, hcomment]
    rfl
  have hunindent : unindent (line ++ ";").toList = c :: (cs ++ [';']) := by
    have hrest : line.toList.dropWhile (· == ' ') = c :: cs := hcs
    rw [unindent, String.toList_append, List.dropWhile_append, hrest]
    rfl
  rw [hread hcs] at h
  rw [hread hunindent]
  exact step_semicolon h

/-- The last of the lines is code. -/
def EndsInCode (lines : List String) : Prop := ∀ line, lines.getLast? = some line → IsCode line

theorem EndsInCode.nil : EndsInCode [] := by simp [EndsInCode]

theorem endsInCode_singleton {line : String} : EndsInCode [line] ↔ IsCode line := by
  simp [EndsInCode]

/-- Code at the end of the second part is at the end of the whole, if there is a second part. -/
theorem EndsInCode.append {lines more : List String} (h : more = [] → EndsInCode lines)
    (hmore : EndsInCode more) : EndsInCode (lines ++ more) := by
  intro line hline
  rw [List.getLast?_append] at hline
  cases hlast : more.getLast? with
  | none =>
    rw [hlast, Option.none_or] at hline
    exact h (List.getLast?_eq_none_iff.1 hlast) line hline
  | some last =>
    rw [hlast, Option.some_or] at hline
    exact hmore line (hlast.trans hline)

theorem EndsInCode.of_forall {lines : List String} (h : ∀ line ∈ lines, IsCode line) :
    EndsInCode lines :=
  fun line hline => h line (List.mem_of_getLast? hline)

/-- Blocks that end in code end in code together. -/
theorem EndsInCode.flatMap {β : Type} {as : List β} {block : β → List String}
    (h : ∀ a ∈ as, EndsInCode (block a)) : EndsInCode (as.flatMap block) := by
  induction as with
  | nil => exact .nil
  | cons a rest ih =>
    obtain ⟨ha, hrest⟩ := List.forall_mem_cons.1 h
    exact .append (fun _ => ha) (ih hrest)

/-- The semicolon ends the chain, and the calls are the same. -/
theorem reads_terminated {lines : List String} {calls : List (Call α)}
    (h : (layout decode).Reads stage lines .chain calls) (hne : lines ≠ [])
    (hcode : EndsInCode lines) :
    (layout decode).Reads stage (terminated lines) .ended calls := by
  -- Any stage may come before the last line: that line may be the end of a routing table.
  induction lines generalizing stage calls with
  | nil => exact absurd rfl hne
  | cons line rest ih =>
    obtain ⟨mid, first, more, hline, hfirst, hrest, rfl⟩ := Layout.reads_cons_iff.1 h
    cases rest with
    | nil =>
      obtain ⟨rfl, rfl⟩ : mid = .chain ∧ [] = more := by
        simpa [Layout.readLines] using hrest.readLines_eq
      have hlast := readLine_semicolon (endsInCode_singleton.1 hcode) hfirst
      refine Layout.reads_cons_iff.2 ⟨_, _, [], ?_, hlast, .nil, rfl⟩
      simpa [Layout.IsLine] using hline
    | cons next others =>
      have hothers := ih hrest (by simp) (by simpa [EndsInCode] using hcode)
      exact Layout.reads_cons_iff.2 ⟨mid, first, more, hline, hfirst, hothers, rfl⟩

/-! ## The builder -/

/-- Whether the entry is a fallback is only in a comment. -/
theorem reads_addEntry (h : Decodes decode denote) (p : Plan) :
    (layout decode).Reads .chain (addEntry p) .chain
      (p.entry.toList.map fun key => .entry (denote key)) := by
  unfold addEntry
  cases p.entry with
  | none => exact .nil
  | some key =>
    have hnote : (layout decode).Reads .chain
        (if p.entryIsFallback then ["// " ++ fallbackNote] else []) .chain [] := by
      split
      · exact reads_note newline_notMem_fallbackNote
      · exact .nil
    refine hnote.append ⟨?_, ?_⟩
    · simp [Layout.IsLine, newline_notMem_literal]
    · simp [Layout.readLines, readLine_code, step, Stage.rules, scan_literal h, List.getLast?_cons,
        List.isPrefixOf?, connect]

theorem reads_noteUnreachable {p : Plan} (h : ∀ key ∈ p.unreachable, IsName key) :
    (layout decode).Reads .chain (noteUnreachable p) .chain [] := by
  unfold noteUnreachable
  split
  · exact .nil
  · exact reads_note (newline_notMem_unreachableNote h)

variable {p : Plan} {names : FunctionNames}

/-- The chain makes the calls of the plan, in their order. -/
theorem reads_calls (h : Decodes decode denote) (hlegible : Legible p names) :
    (layout decode).Reads .chain (calls p names) .chain (p.calls denote) := by
  have hnodes := Layout.Reads.map_zip hlegible.length_units hlegible.units
    fun q _ name hname => reads_addNode h q hname
  have hedges := Layout.Reads.map_lines fun edge (_ : edge ∈ p.edges) => reads_addEdge h edge
  have hbranches := Layout.Reads.flatMap_zip hlegible.length_routers hlegible.routers
    fun b _ name hname => reads_addBranch h b hname
  have hsinks := Layout.Reads.map_lines fun key (_ : key ∈ p.sinks) => reads_addSink h key
  have hall := ((((hnodes.append (reads_addEntry h p)).append
    (reads_noteUnreachable hlegible.unreachable)).append hedges).append hbranches).append hsinks
  rw [List.append_nil] at hall
  exact hall

/-! ## Where the builder ends -/

theorem isCode_addNode (p : PlannedNode) (name : String) : IsCode (addNode p name) := by
  unfold addNode
  simp [IsCode, unindent]

theorem isCode_addEdge (edge : String × String) : IsCode (addEdge edge) := by
  unfold addEdge
  simp [IsCode, unindent]

theorem isCode_addSink (key : String) : IsCode (addSink key) := by
  unfold addSink
  simp [IsCode, unindent]

theorem isCode_indent {line : String} (h : IsCode line) : IsCode (indent ++ line) := by
  simpa [IsCode, unindent, indent] using h

/-- A table ends in a brace. -/
theorem endsInCode_addBranch (b : Branch) (name : String) : EndsInCode (addBranch b name) := by
  refine .append (by simp) (endsInCode_singleton.2 ?_)
  simp [IsCode, unindent]

/-- The comment about a fallback comes before the call. -/
theorem endsInCode_addEntry (p : Plan) : EndsInCode (addEntry p) := by
  unfold addEntry
  cases p.entry with
  | none => exact .nil
  | some key =>
    refine .append (by simp) (endsInCode_singleton.2 ?_)
    simp [IsCode, unindent]

/-- A note about what cannot be reached stands in front of an edge, a branch or a sink. -/
theorem unreachable_eq_nil (hlegible : Legible p names) (hedges : p.edges.map addEdge = [])
    (hbranches : (p.branches.zip names.routers).flatMap (fun (b, name) => addBranch b name) = [])
    (hsinks : p.sinks.map addSink = []) : p.unreachable = [] := by
  have hzip : p.branches.zip names.routers = [] := by
    refine List.eq_nil_iff_forall_not_mem.2 fun pair hpair => ?_
    exact absurd (List.flatMap_eq_nil_iff.1 hbranches pair hpair) (by simp [addBranch])
  by_contra hne
  rcases hlegible.behind hne with hne | hne | hne
  · exact hne (List.map_eq_nil_iff.1 hedges)
  · rcases List.zip_eq_nil_iff.1 hzip with hnil | hnil
    · exact hne hnil
    · exact hne (List.length_eq_zero_iff.1 (by rw [← hlegible.length_routers, hnil]; rfl))
  · exact hne (List.map_eq_nil_iff.1 hsinks)

/-- No chain ends in a comment. -/
theorem endsInCode_calls (hlegible : Legible p names) : EndsInCode (calls p names) := by
  have hedges : EndsInCode (p.edges.map addEdge) :=
    .of_forall (List.forall_mem_map.2 fun edge _ => isCode_addEdge edge)
  have hbranches := EndsInCode.flatMap fun pair (_ : pair ∈ p.branches.zip names.routers) =>
    endsInCode_addBranch pair.1 pair.2
  have hsinks : EndsInCode (p.sinks.map addSink) :=
    .of_forall (List.forall_mem_map.2 fun key _ => isCode_addSink key)
  refine .append (fun hnoSink => .append (fun hnoBranch => .append (fun hnoEdge => ?_) hedges)
    hbranches) hsinks
  -- What is left of the chain ends in code if there is no note at its end.
  have hnote : noteUnreachable p = [] := by
    rw [noteUnreachable, unreachable_eq_nil hlegible hnoEdge hnoBranch hnoSink]
    rfl
  rw [hnote, List.append_nil]
  refine .append (fun _ => .of_forall ?_) (endsInCode_addEntry p)
  exact List.forall_mem_map.2 fun pair _ => isCode_addNode pair.1 pair.2

theorem EndsInCode.indent {lines : List String} (h : EndsInCode lines) :
    EndsInCode (lines.map (indent ++ ·)) := by
  intro line hline
  rw [List.getLast?_map, Option.map_eq_some_iff] at hline
  obtain ⟨last, hlast, rfl⟩ := hline
  exact isCode_indent (h last hlast)

/-- Only a semicolon is added. -/
theorem mem_terminated {lines : List String} {line : String} (h : line ∈ terminated lines) :
    ∃ s ∈ lines, line = s ∨ line = s ++ ";" := by
  fun_induction terminated lines with
  | case1 => cases h
  | case2 s => exact ⟨s, by simp, .inr (List.mem_singleton.1 h)⟩
  | case3 s rest hne ih =>
    rcases List.mem_cons.1 h with rfl | h
    · exact ⟨line, by simp, .inl rfl⟩
    · obtain ⟨s', hs', heq⟩ := ih h
      exact ⟨s', List.mem_cons_of_mem s hs', heq⟩

/-- The first line stays the first. -/
theorem exists_terminated_cons (s : String) (lines : List String) :
    ∃ first rest, terminated (s :: lines) = first :: rest ∧ (first = s ∨ first = s ++ ";") ∧
      ∀ line ∈ rest, ∃ s' ∈ lines, line = s' ∨ line = s' ++ ";" := by
  cases lines with
  | nil => exact ⟨s ++ ";", [], rfl, .inr rfl, by simp⟩
  | cons s' rest => exact ⟨s, terminated (s' :: rest), rfl, .inl rfl, fun _ => mem_terminated⟩

/-- An indented line starts no builder. -/
theorem isFirst_indent (line : String) :
    (layout decode).isFirst (indent ++ line).toList = false := by
  have hrules : ∀ cs, applyRules decode Stage.outside.rules (' ' :: cs) = none := by
    simp [Stage.rules, List.isPrefixOf?]
  have hstep : ∀ cs, step decode Stage.outside (' ' :: ' ' :: cs) = none := by
    intro cs
    rw [step, List.dropLast_cons_of_ne_nil (by simp), hrules, hrules]
    simp
  simpa [Layout.isFirst, layout, indent] using hstep line.toList

def builder (p : Plan) (names : FunctionNames) : List String :=
  terminated ("const workflow = new StateGraph(FlowState)" :: (calls p names).map (indent ++ ·)) ++
    ["", "export const app = workflow.compile();"]

/-- The lines of the builder lead from its start to its end. -/
theorem reads_builder (h : Decodes decode denote) (hlegible : Legible p names) :
    (layout decode).Reads .outside (builder p names) .done (p.calls denote) := by
  have hstart : (layout decode).Reads .outside ["const workflow = new StateGraph(FlowState)"] .chain
      [] := by
    constructor <;>
      simp [Layout.IsLine, Layout.readLines, readLine_code, step, Stage.rules, List.getLast?_cons,
        List.isPrefixOf?]
  have hcalls := (reads_calls h hlegible).indent (f := (indent ++ ·))
    (by simp [Layout.IsLine, indent]) (by simp [unindent, indent])
  -- what the semicolon is put behind
  have hcode : EndsInCode (["const workflow = new StateGraph(FlowState)"] ++
      (calls p names).map (indent ++ ·)) := by
    refine .append (fun _ => endsInCode_singleton.2 ?_) (endsInCode_calls hlegible).indent
    simp [IsCode, unindent]
  have hend : (layout decode).Reads .ended ["", "export const app = workflow.compile();"] .done
      [] := by
    constructor <;>
      simp [Layout.IsLine, Layout.readLines, readLine_code, step, Stage.rules, Stage.behind,
        List.getLast?_cons, List.isPrefixOf?]
  have hall := (reads_terminated (hstart.append hcalls) (by simp) hcode).append hend
  rwa [List.nil_append, List.append_nil] at hall

/-- Only its first line looks like the start of a builder. -/
theorem exists_builder_cons (decode : Decoder α) (p : Plan) (names : FunctionNames) :
    ∃ first rest, builder p names = first :: rest ∧
      (layout decode).isFirst first.toList = true ∧
      ∀ line ∈ rest, (layout decode).isFirst line.toList = false := by
  obtain ⟨first, rest, hterminated, hfirst, hrest⟩ := exists_terminated_cons
    "const workflow = new StateGraph(FlowState)" ((calls p names).map (indent ++ ·))
  refine ⟨first, rest ++ ["", "export const app = workflow.compile();"], ?_, ?_, ?_⟩
  · rw [builder, hterminated, List.cons_append]
  · rcases hfirst with rfl | rfl <;>
      simp [Layout.isFirst, layout, step, Stage.rules, Stage.behind, List.getLast?_cons,
        List.isPrefixOf?]
  · intro line hline
    rcases List.mem_append.1 hline with hline | hline
    · obtain ⟨s, hs, hline⟩ := hrest line hline
      obtain ⟨call, -, rfl⟩ := List.mem_map.1 hs
      rcases hline with rfl | rfl
      · exact isFirst_indent call
      · rw [String.append_assoc]
        exact isFirst_indent (call ++ ";")
    · simp only [List.mem_cons, List.not_mem_nil, or_false] at hline
      rcases hline with rfl | rfl <;>
        simp [Layout.isFirst, layout, step, Stage.rules, List.getLast?_cons, List.isPrefixOf?]

/-- **The program of a plan builds the graph of the plan.** -/
theorem read_render (h : Decodes decode denote) (hlegible : Legible p (dialect.functionNames p))
    (project : String) :
    (layout decode).read (dialect.render p project) = some (p.wiring.map denote) := by
  obtain ⟨before, hsections⟩ := exists_sections_eq dialect p project
  obtain ⟨first, rest, hbuilder, hfirst, hrest⟩ :=
    exists_builder_cons decode p (dialect.functionNames p)
  -- the comment on a graph without nodes counts as what stands before the builder
  have hprogram : dialect.gap.intercalate (dialect.sections p project) =
      (before ++ if p.nodes.isEmpty then ["// graph has no nodes yet"] else []) ++
        first :: rest := by
    rw [hsections, ← hbuilder, List.append_assoc]
    exact congrArg (before ++ ·) (List.append_assoc ..)
  have hreads := reads_builder h hlegible
  rw [hbuilder] at hreads
  rw [← Plan.ofCalls_calls]
  exact Layout.read_eq_of_reads hprogram hfirst hrest rfl hreads rfl

end AgentFlow.Skeleton.TypeScript
