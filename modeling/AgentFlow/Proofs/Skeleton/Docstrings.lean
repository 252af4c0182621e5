import AgentFlow.Proofs.Skeleton.Comments
import AgentFlow.Proofs.Skeleton.DocText

/-!
# No text gets out of a docstring

Three kinds of sections have a docstring: the header, the functions of the nodes and the functions
that choose a route. Whatever the texts of a graph are, each docstring is closed where the section
means to close it and says the texts as they are (`docstrings_of_plan`), and the comments behind it
keep to their lines.
-/

namespace AgentFlow.Skeleton.Python

open Text

/-! ## Sections with a docstring -/

/-- Some lines as one text. -/
def joined (lines : List String) : String := "\n".intercalate lines

def quotes : String := "\"\"\""

/-- The text goes on with a docstring behind `before`: the string that is opened there is closed
right in front of `after`, and its meaning is `meaning`. -/
def HasDocstring (text before meaning after : String) : Prop :=
  ∃ written, text = before ++ quotes ++ written ++ quotes ++ after ∧
    readDoc (written ++ quotes ++ after).toList = some (written.toList, after.toList) ∧
    docMeaning written.toList = some meaning.toList

/-- What spells a text makes a docstring of it, with a plain text between it and the quotes that
close the string. -/
theorem hasDocstring_of_spells {w m gap : String} (h : Spells w m) (hgap : IsPlainDoc gap)
    (hne : gap ≠ "") (before after : String) :
    HasDocstring (before ++ quotes ++ (w ++ gap) ++ quotes ++ after) before (m ++ gap) after := by
  refine ⟨w ++ gap, rfl, ?closed, ?meaning⟩
  case closed =>
    obtain ⟨c, cs, hcs⟩ := List.exists_cons_of_ne_nil fun hnil => hne (String.toList_injective hnil)
    -- the text before the gap is read over as no quote follows it
    have hquote : (gap.toList ++ (quotes ++ after).toList).head? ≠ some '\x22' := by
      have hc := hgap c (by simp [hcs])
      rw [hcs]
      simpa using (isPlainDoc_iff.1 hc).1
    have hquotes : readDoc (quotes ++ after).toList = some ([], after.toList) := by
      rw [String.toList_append]
      rfl
    rw [String.append_assoc, String.append_assoc, String.toList_append, String.toList_append,
      h.read _ hquote, readDoc_plain hgap, hquotes]
    simp
  case meaning =>
    have hgap' := docMeaning_plain hgap []
    rw [List.append_nil] at hgap'
    rw [String.toList_append, h.meaning, hgap']
    simp [docMeaning]

theorem joined_cons (line : String) {lines : List String} (h : lines ≠ []) :
    joined (line :: lines) = line ++ "\n" ++ joined lines := String.intercalate_cons_of_ne_nil h

/-- Lines may be cut in the middle of one. -/
theorem joined_append_cons (before : List String) (s t : String) (after : List String) :
    joined (before ++ (s ++ t) :: after) = joined (before ++ [s]) ++ joined (t :: after) := by
  induction before with
  | nil => simp [joined, String.intercalate_cons_append]
  | cons line before ih =>
    rw [List.cons_append, List.cons_append, joined_cons line (by simp), joined_cons line (by simp),
      ih, ← String.append_assoc]

/-- A docstring of several lines, the quotes that close it on a line of their own. -/
theorem hasDocstring_joined {indent w m : String} {ws ms : List String}
    (hindent : IsPlainDoc indent) (hw : Spells w m) (hws : List.Forall₂ Spells ws ms)
    (before after : List String) :
    HasDocstring
      (joined (before ++ (indent ++ (quotes ++ w)) :: (ws ++ (indent ++ quotes) :: after)))
      (joined (before ++ [indent])) (joined (m :: ms ++ [indent])) (joined ("" :: after)) := by
  have hgap : IsPlainDoc ("\n" ++ indent) := by
    intro c hc
    rw [String.toList_append, List.mem_append] at hc
    exact hc.elim (List.all_eq_true.1 rfl c) (hindent c)
  have hspells : Spells (joined (w :: ws)) (joined (m :: ms)) :=
    spells_intercalate (List.all_eq_true.1 rfl) (by decide) (.cons hw hws)
  have hlast : ∀ s : String, ∀ lines : List String,
      joined (s :: lines ++ [indent]) = joined (s :: lines) ++ ("\n" ++ indent) := by
    intro s lines
    rw [joined, String.intercalate_append_of_ne_nil (by simp) (by simp), String.append_assoc]
    simp [joined]
  -- the docstring is cut out of its lines: behind the first quotes, and before the last ones
  have hopen : joined ((quotes ++ w) :: (ws ++ (indent ++ quotes) :: after)) =
      quotes ++ joined (w :: ws ++ (indent ++ quotes) :: after) := String.intercalate_cons_append
  have hclose : joined (quotes :: after) = quotes ++ joined ("" :: after) := by
    have h := String.intercalate_cons_append (s := "\n") (t := quotes) (u := "") (l := after)
    rwa [String.append_empty] at h
  rw [joined_append_cons, hopen, joined_append_cons, hclose, hlast, hlast]
  have hdoc := hasDocstring_of_spells hspells hgap (by simp) (joined (before ++ [indent]))
    (joined ("" :: after))
  simpa only [String.append_assoc] using hdoc

/-! ## Plain texts -/

theorem isPlainDoc_of_all {s : String} (h : s.toList.all isPlainDoc = true) : IsPlainDoc s :=
  List.all_eq_true.1 h

theorem IsPlainDoc.append {s t : String} (hs : IsPlainDoc s) (ht : IsPlainDoc t) :
    IsPlainDoc (s ++ t) := forall_mem_append hs ht

/-- Names and numbers need no escapes. -/
theorem isPlainDoc_of_isNameChar {s : String} (h : ∀ c ∈ s.toList, isNameChar c = true) :
    IsPlainDoc s := by
  intro c hc
  have hchar := h c hc
  rw [isPlainDoc_iff]
  constructor <;> (rintro rfl; cases hchar)

theorem isPlainDoc_repr (n : Nat) : IsPlainDoc n.repr :=
  isPlainDoc_of_isNameChar fun _ hc => isNameChar_of_mem_repr hc

/-- Roles go by fixed names. -/
theorem isPlainDoc_roleNames (q : PlannedNode) : IsPlainDoc (roleNames q) := by
  refine forall_mem_intercalate (isPlainDoc_of_all rfl) fun part hpart => ?_
  obtain ⟨role, -, rfl⟩ := List.mem_map.1 hpart
  cases role <;> exact isPlainDoc_of_all rfl

theorem isPlainDoc_indent : IsPlainDoc indent := isPlainDoc_of_all rfl

/-! ## What docstrings say -/

def headerDoc (p : Plan) (project : String) : List String := [
  oneLine project ++ ": LangGraph skeleton generated by GraphBuilder.",
  "",
  "Nodes: " ++ p.nodes.length.repr ++ " | Entry: " ++ entryName p]

def imports (p : Plan) : List String := [
  "",
  if p.branches.isEmpty then "from typing import TypedDict"
  else "from typing import Literal, TypedDict",
  "",
  "from langgraph.graph import END, START, StateGraph"]

/-- What the docstring of a node's function says of the description. -/
def descriptionDoc (q : PlannedNode) : List String :=
  match descriptionLines q with
  | [] => []
  | texts => "" :: texts.map fun s => trimEnd (indent ++ s)

/-- What the docstring of a node's function says. -/
def unitDoc (q : PlannedNode) : List String :=
  title q :: (descriptionDoc q ++ [
    "",
    indent ++ "Roles: " ++ roleNames q,
    indent ++ "Tools: " ++ toolNames id q])

def unitBody (q : PlannedNode) (branch : Option Branch) : List String :=
  [indent ++ "tools = " ++ listLiteral q.node.tools, indent ++ "# " ++ todoNote (title q)] ++
    result branch

def routerHead (b : Branch) (name : String) : String :=
  "def " ++ name ++ "(state: FlowState) -> Literal[" ++ ", ".intercalate (routeLiterals b) ++ "]:"

def routerDoc (b : Branch) : String := "Pick the branch taken after " ++ b.source ++ "."

/-! ## The sections -/

/-- Only the name of the project is a text of the user there. -/
theorem hasDocstring_header {p : Plan} (h : IsPlainDoc (entryName p)) (project : String) :
    HasDocstring (joined (header p project)) "" (joined (headerDoc p project ++ [""]))
      (joined ("" :: imports p)) := by
  have htitle : Spells
      (docText (oneLine project) ++ ": LangGraph skeleton generated by GraphBuilder.")
      (oneLine project ++ ": LangGraph skeleton generated by GraphBuilder.") :=
    (spells_docText _).append (spells_self (isPlainDoc_of_all rfl)) (by decide)
  have hcounts : IsPlainDoc ("Nodes: " ++ p.nodes.length.repr ++ " | Entry: " ++ entryName p) :=
    (((isPlainDoc_of_all rfl).append (isPlainDoc_repr _)).append (isPlainDoc_of_all rfl)).append h
  have hlines := List.Forall₂.cons (spells_self (isPlainDoc_of_all (s := "") rfl))
    (.cons (spells_self hcounts) .nil)
  have hdoc := hasDocstring_joined (isPlainDoc_of_all (s := "") rfl) htitle hlines [] (imports p)
  simpa [header, headerDoc, imports, quotes, joined, String.append_assoc] using hdoc

/-- A description is trimmed after it has been escaped, line by line. -/
theorem spells_descriptionDoc (q : PlannedNode) :
    List.Forall₂ Spells (description q) (descriptionDoc q) := by
  rw [description, descriptionDoc]
  cases descriptionLines q with
  | nil => exact .nil
  | cons s rest =>
    refine .cons (spells_self (isPlainDoc_of_all rfl)) ?_
    refine forall₂_map_map fun t _ => ?_
    rw [trimEnd_plain_append_docText isPlainDoc_indent]
    exact spells_docText _

theorem spells_toolNames (q : PlannedNode) : Spells (toolNames docText q) (toolNames id q) := by
  rw [toolNames, toolNames]
  split
  · exact spells_self (isPlainDoc_of_all rfl)
  · exact spells_intercalate (isPlainDoc_of_all rfl) (by decide)
      (forall₂_map_map fun t _ => spells_docText t)

/-- In a function of a node the title, the description and the tools are escaped. -/
theorem hasDocstring_unit (q : PlannedNode) (name : String) (branch : Option Branch) :
    HasDocstring (joined (unit q name branch))
      (joined ["def " ++ name ++ "(state: FlowState) -> dict:", indent])
      (joined (unitDoc q ++ [indent])) (joined ("" :: unitBody q branch)) := by
  have hroles : IsPlainDoc (indent ++ "Roles: " ++ roleNames q) :=
    (isPlainDoc_indent.append (isPlainDoc_of_all rfl)).append (isPlainDoc_roleNames q)
  have htools : Spells (indent ++ "Tools: " ++ toolNames docText q)
      (indent ++ "Tools: " ++ toolNames id q) :=
    (spells_toolNames q).plain_append (isPlainDoc_indent.append (isPlainDoc_of_all rfl))
  have hlines : List.Forall₂ Spells
      (description q ++ ["", indent ++ "Roles: " ++ roleNames q,
        indent ++ "Tools: " ++ toolNames docText q])
      (descriptionDoc q ++ ["", indent ++ "Roles: " ++ roleNames q,
        indent ++ "Tools: " ++ toolNames id q]) :=
    List.rel_append (spells_descriptionDoc q)
      (.cons (spells_self (isPlainDoc_of_all rfl)) (.cons (spells_self hroles) (.cons htools .nil)))
  have hdoc := hasDocstring_joined isPlainDoc_indent (spells_docText (title q)) hlines
    ["def " ++ name ++ "(state: FlowState) -> dict:"] (unitBody q branch)
  -- the section as the lemma on docstrings has it
  have hunit : unit q name branch = ["def " ++ name ++ "(state: FlowState) -> dict:"] ++
      (indent ++ (quotes ++ docText (title q))) ::
        (description q ++ ["", indent ++ "Roles: " ++ roleNames q,
          indent ++ "Tools: " ++ toolNames docText q] ++ (indent ++ quotes) ::
            unitBody q branch) := by
    simp [unit, docstring, unitBody, quotes, String.append_assoc]
  rw [hunit]
  exact hdoc

/-- A docstring of one line: the gap before the quotes is the full stop. -/
theorem hasDocstring_router {b : Branch} (h : IsPlainDoc b.source) (name : String) :
    HasDocstring (joined (router b name)) (joined [routerHead b name, indent]) (routerDoc b)
      (joined ["", indent ++ "return state[\"route\"]"]) := by
  have hdoc := hasDocstring_of_spells
    (spells_self ((isPlainDoc_of_all (s := "Pick the branch taken after ") rfl).append h))
    (isPlainDoc_of_all (s := ".") rfl) (by decide) (joined [routerHead b name, indent])
    (joined ["", indent ++ "return state[\"route\"]"])
  have hrouter : joined (router b name) = joined [routerHead b name, indent] ++ quotes ++
      ("Pick the branch taken after " ++ b.source ++ ".") ++ quotes ++
        joined ["", indent ++ "return state[\"route\"]"] := by
    apply String.toList_injective
    simp [router, routerHead, joined, String.intercalate_cons_of_ne_nil, quotes]
  rw [hrouter]
  exact hdoc

/-! ## The lines behind a docstring -/

def isLineBreak (c : Char) : Bool := c == '\n' || c == '\r'

theorem isLineBreak_eq_false {s : String} (h : IsFlat s) :
    ∀ c ∈ s.toList, isLineBreak c = false := by
  intro c hc
  rcases h c hc with rfl | hblank
  · rfl
  · rw [isLineBreak, Bool.or_eq_false_iff, beq_eq_false_iff_ne, beq_eq_false_iff_ne]
    constructor <;> (rintro rfl; cases hblank)

/-- Tools and routes are literals there, and the title of the node is one line. -/
theorem isFlat_of_mem_unitBody {q : PlannedNode} (h : IsName q.key) (branch : Option Branch) :
    ∀ line ∈ unitBody q branch, IsFlat line := by
  have hindent : IsFlat indent := isFlat_of_all rfl
  have htools : IsFlat (indent ++ "tools = " ++ listLiteral q.node.tools) :=
    (hindent.append (isFlat_of_all rfl)).append (isFlat_listLiteral _)
  have hnote : ∀ {note : String}, IsFlat note → IsFlat (indent ++ "# " ++ note) :=
    (hindent.append (isFlat_of_all rfl)).append
  have hresult : ∀ line ∈ result branch, IsFlat line := by
    cases branch with
    | none =>
      rw [result, List.forall_mem_singleton]
      exact hindent.append (isFlat_of_all rfl)
    | some b =>
      rw [result, List.forall_mem_cons, List.forall_mem_singleton]
      exact ⟨hnote (isFlat_returnNote b),
        ((hindent.append (isFlat_of_all rfl)).append (isFlat_literal _)).append
          (isFlat_of_all rfl)⟩
  rw [unitBody, List.forall_mem_append, List.forall_mem_cons, List.forall_mem_singleton]
  exact ⟨⟨htools, hnote (isFlat_todoNote (isFlat_title h))⟩, hresult⟩

/-- Lines that keep to themselves are the lines of the text that they make. -/
theorem pieces_joined {lines : List String} (h : ∀ line ∈ lines, IsFlat line)
    (hne : lines ≠ []) :
    pieces isLineBreak (joined lines).toList = lines.map String.toList := by
  rw [joined, String.toList_intercalate]
  refine pieces_intercalate rfl ?_ (by simpa using hne)
  exact List.forall_mem_map.2 fun line hline => isLineBreak_eq_false (h line hline)

/-! ## All docstrings of a program -/

variable {nodes : List Node} {edges : List Edge} {entryId : Option String} {p : Plan}

/-- **No text gets out of a docstring.** In the program of a plan the docstrings of the header, of
the functions of the nodes and of the functions that choose a route end where they are meant to, and
say the texts of the graph as they are. Behind the docstring of a node's function, every line stays
one line. -/
theorem docstrings_of_plan (h : plan nodes edges entryId = .ok p) :
    (∀ project, HasDocstring (joined (header p project)) "" (joined (headerDoc p project ++ [""]))
      (joined ("" :: imports p))) ∧
    (∀ q ∈ p.nodes, ∀ name branch,
      HasDocstring (joined (unit q name branch))
        (joined ["def " ++ name ++ "(state: FlowState) -> dict:", indent])
        (joined (unitDoc q ++ [indent])) (joined ("" :: unitBody q branch)) ∧
      pieces isLineBreak (joined ("" :: unitBody q branch)).toList =
        ("" :: unitBody q branch).map String.toList) ∧
    ∀ b ∈ p.branches, ∀ name,
      HasDocstring (joined (router b name)) (joined [routerHead b name, indent]) (routerDoc b)
        (joined ["", indent ++ "return state[\"route\"]"]) := by
  refine ⟨fun project => hasDocstring_header ?entry project, ?units, fun b hb name =>
    hasDocstring_router ?source name⟩
  case entry => exact isPlainDoc_of_isNameChar (Plan.isName_entryName h).chars
  case units =>
    intro q hq name branch
    refine ⟨hasDocstring_unit q name branch, pieces_joined ?_ (by simp)⟩
    exact List.forall_mem_cons.2
      ⟨isFlat_of_all rfl, isFlat_of_mem_unitBody (Plan.isName_key h hq) branch⟩
  case source => exact isPlainDoc_of_isNameChar (Plan.isName_source h hb).chars

/-- A node whose texts try to close a docstring and to start a line. -/
def loudNodes : List Node := [
  { id := "a", label := "Say \"\"\"hi\"\"\"\r\nimport os", description := "C:\\temp\n\"\"\"\n\\",
    tools := ["x\"\"\"y", "\"", "\\"], roles := [.agent] }]

/-- All texts are in use there: quotes, backslashes and line ends of both kinds. -/
theorem docstrings_of_plan_loud : ∃ p, plan loudNodes [] none = .ok p ∧
    HasDocstring (joined (header p "\"\"\" \\")) "" (joined (headerDoc p "\"\"\" \\" ++ [""]))
      (joined ("" :: imports p)) ∧
    ∀ q ∈ p.nodes, HasDocstring (joined (unit q q.key none))
      (joined ["def " ++ q.key ++ "(state: FlowState) -> dict:", indent])
      (joined (unitDoc q ++ [indent])) (joined ("" :: unitBody q none)) := by
  have hplan : ∃ p, plan loudNodes [] none = .ok p := ⟨_, rfl⟩
  obtain ⟨p, h⟩ := hplan
  obtain ⟨hheader, hunits, -⟩ := docstrings_of_plan h
  exact ⟨p, h, hheader _, fun q hq => (hunits q hq q.key none).1⟩

end AgentFlow.Skeleton.Python
