import AgentFlow.Compiled
import AgentFlow.Json.Printer
import AgentFlow.Skeleton.Python
import AgentFlow.Proofs.Outcomes
import AgentFlow.Proofs.Plan.Basic

/-!
# The running flow of a plan

A generated program, once it runs, shows a flow: the planned nodes under their keys with the
metadata that the program gives them, the edges and routes of the plan, and a start and an end.
Every node of it is imported as it was planned (`importNode_runningNode`).
-/

namespace AgentFlow

/-! ## Reading texts -/

/-- A list without repetitions keeps all its elements. -/
theorem firstSeen_of_nodup {α : Type} [DecidableEq α] {as : List α} (h : as.Nodup) :
    firstSeen as = as := by
  induction as with
  | nil => rfl
  | cons a rest ih =>
    obtain ⟨ha, hrest⟩ := List.nodup_cons.1 h
    have hkept : rest.filter (· ≠ a) = rest := by
      rw [List.filter_eq_self]
      intro b hb
      exact decide_eq_true fun heq => ha (heq ▸ hb)
    rw [firstSeen, ih hrest, hkept]

/-- Texts have nothing to merge. -/
theorem Json.mergedItems_map_str (ss : List String) :
    mergedItems (ss.map .str) = ss.map .str := by
  induction ss with
  | nil => rfl
  | cons s rest ih =>
    show .str s :: mergedItems (rest.map .str) = .str s :: rest.map .str
    rw [ih]

namespace Schema

/-- A list of texts is read as it is. -/
theorem readItems_text (i : Nat) (ss : List String) :
    readItems text i (ss.map .str) = .ok ss := by
  induction ss generalizing i with
  | nil => rfl
  | cons s rest ih =>
    rw [List.map_cons, readItems, ih]
    rfl

/-- Roles are read from their names. -/
theorem readRoles_text (rs : List Role) :
    readRoles ((rs.map Role.text).map .str) = .ok rs := by
  induction rs with
  | nil => rfl
  | cons r rest ih =>
    have hr : role? (.str r.text) = some r := Role.ofText?_text r
    rw [List.map_cons, List.map_cons, readRoles, hr, ih]
    rfl

/-- Roles are read into their order. -/
theorem roles_texts (rs : List Role) :
    roles (.texts (rs.map Role.text)) = .ok (Role.canonical rs) := by
  rw [Json.texts, roles, Json.merged, Json.mergedItems_map_str]
  · simp only [parts, readRoles_text]
  · intro h
    cases h

/-- A node is read from the fields that an import gives. -/
theorem node_texts (id label description : String) (tools : List String) (rs : List Role) :
    node .program (.obj [("id", .str id), ("label", .str label), ("description", .str description),
      ("tools", .texts tools), ("roles", .texts (rs.map Role.text))]) =
      .ok { id := id, label := label, description := description, tools := firstSeen tools,
            roles := Role.canonical rs } := by
  let fields : List (String × Json) := [("id", .str id), ("label", .str label),
    ("description", .str description), ("tools", .texts tools),
    ("roles", .texts (rs.map Role.text))]
  -- The names are distinct, so each field is found where it is.
  have hsettle : Json.settle fields = fields := by
    simp [fields, Json.settle, Json.putField]
  have htools : optional fields "tools" (listOf text) [] = .ok tools := by
    show (readItems text 0 (tools.map .str)).under (.field "tools") = .ok tools
    rw [readItems_text]
    rfl
  have hroles : optional fields "roles" roles [] = .ok (Role.canonical rs) := by
    show (roles (.texts (rs.map Role.text))).under (.field "roles") = .ok (Role.canonical rs)
    rw [roles_texts]
    rfl
  unfold node record
  show (Node.mk <$> required (Json.settle fields) "id" text <*> _ <*> _ <*> _ <*> _ <*> _ <*> _) = _
  rw [hsettle, htools, hroles]
  rfl

end Schema

namespace Compiled

open Schema Text

variable {nodes : List Node} {edges : List Edge} {p : Plan}

/-! ## The view -/

/-- What a generated program keeps about a node. -/
def metadataOf (n : Node) : Json := .obj [
  ("label", .str n.label),
  ("description", .str n.description),
  ("roles", .texts (n.roles.map Role.text)),
  ("tools", .texts n.tools)]

/-- A planned node as the running flow shows it. -/
def runningNode (q : PlannedNode) : RunningNode := ⟨q.key, .str q.key, metadataOf q.node⟩

namespace RunningEdge

/-- The edge from the start to the entry. -/
def ofEntry (key : String) : RunningEdge := ⟨startKey, key, false, .null⟩

def ofEdge (edge : String × String) : RunningEdge := ⟨edge.1, edge.2, false, .null⟩

def ofRoute (b : Branch) (r : Route) : RunningEdge := ⟨b.source, r.target, true, .str r.key⟩

/-- The edge from where the flow ends to the end. -/
def ofSink (key : String) : RunningEdge := ⟨key, endKey, false, .null⟩

end RunningEdge

/-- The edges that the running flow shows. -/
def runningEdges (p : Plan) : List RunningEdge :=
  p.entry.toList.map .ofEntry ++ p.edges.map .ofEdge ++
    p.branches.flatMap (fun b => b.routes.map (.ofRoute b)) ++ p.sinks.map .ofSink

def IsTextOrNull (v : Json) : Prop := v = .null ∨ ∃ s, v = .str s

/-- The running flow of a plan: its nodes in order, the start and the end somewhere, and its edges
in any order. -/
structure IsViewOf (p : Plan) (flow : RunningFlow) : Prop where
  nodes : flow.nodes.filter (fun n => !isTerminal n.key) = p.nodes.map runningNode
  terminals : ((flow.nodes.filter fun n => isTerminal n.key).map (·.key)).Perm [startKey, endKey]
  edges : flow.edges.Perm (runningEdges p)
  name : IsTextOrNull flow.name

/-! ## Keys and terminals -/

/-- A name is not the start or the end: these start with an underscore. -/
theorem isTerminal_of_isName {key : String} (h : IsName key) : isTerminal key = false := by
  obtain ⟨c, cs, hcs, hlower⟩ := h.exists_cons
  have hne : ∀ s : String, s.toList.head? = some '_' → key ≠ s := by
    rintro s hs rfl
    rw [hcs, List.head?_cons, Option.some.injEq] at hs
    rw [hs] at hlower
    cases hlower
  simp [isTerminal, hne startKey (by decide), hne endKey (by decide)]

/-- No planned node has the key of the start or the end. -/
theorem isTerminal_of_mem_keys (h : Plan.Resolved nodes edges p) {key : String}
    (hkey : key ∈ p.nodes.map PlannedNode.key) : isTerminal key = false := by
  obtain ⟨q, hq, rfl⟩ := List.mem_map.1 hkey
  have hassigned := Plan.mem_assignKeys_of_lookup (h.key q hq)
  exact isTerminal_of_isName (Plan.isName_of_mem_assignKeys hassigned)

/-- The view of a plan with the start first, the end last and the edges as the plan has them. -/
def viewOf (p : Plan) : RunningFlow where
  name := .null
  nodes := ⟨startKey, .str startKey, .null⟩ ::
    (p.nodes.map runningNode ++ [⟨endKey, .str endKey, .null⟩])
  edges := runningEdges p

/-- This is a view of the plan. -/
theorem isViewOf_viewOf (h : Plan.Resolved nodes edges p) : IsViewOf p (viewOf p) := by
  have hinner : ∀ n ∈ p.nodes.map runningNode, isTerminal n.key = false := by
    intro n hn
    obtain ⟨q, hq, rfl⟩ := List.mem_map.1 hn
    exact isTerminal_of_mem_keys h (List.mem_map_of_mem hq)
  have hkept : (p.nodes.map runningNode).filter (fun n => !isTerminal n.key) =
      p.nodes.map runningNode := List.filter_eq_self.2 fun n hn => by rw [hinner n hn]; rfl
  have hdropped : (p.nodes.map runningNode).filter (fun n => isTerminal n.key) = [] :=
    List.filter_eq_nil_iff.2 fun n hn => by simp [hinner n hn]
  have hstart : isTerminal startKey = true := rfl
  have hend : isTerminal endKey = true := rfl
  constructor
  case nodes => simp [viewOf, hkept, hstart, hend]
  case terminals => simp [viewOf, hdropped, hstart, hend]
  case edges => exact .refl _
  case name => exact Or.inl rfl

/-! ## Metadata as it is written -/

theorem compactItems_map_str (ss : List String) :
    Json.compactItems (ss.map .str) = ss.map literal := by
  induction ss with
  | nil => rfl
  | cons s rest ih =>
    show literal s :: Json.compactItems (rest.map .str) = literal s :: rest.map literal
    rw [ih]

/-- A list of texts is spelled as in the program. -/
theorem compact_texts (ss : List String) :
    (Json.texts ss).compact = Skeleton.listLiteral ss := by
  rw [Json.texts, Json.compact, compactItems_map_str, Skeleton.listLiteral]

/-- The metadata is what the generated program has written. -/
theorem compact_metadataOf (q : PlannedNode) :
    (metadataOf q.node).compact = Skeleton.Python.metadata q := by
  have hlabel : literal "label" = "\"label\"" := by decide +kernel
  have hdescription : literal "description" = "\"description\"" := by decide +kernel
  have hroles : literal "roles" = "\"roles\"" := by decide +kernel
  have htools : literal "tools" = "\"tools\"" := by decide +kernel
  have hstr : ∀ s, (Json.str s).compact = literal s := fun s => by rw [Json.compact]
  rw [metadataOf, Json.compact]
  simp only [Json.compactFields, hstr, compact_texts, hlabel, hdescription, hroles, htools]
  unfold Skeleton.Python.metadata
  have hjoin : ∀ a b c d : String,
      ", ".intercalate [a, b, c, d] = a ++ ", " ++ b ++ ", " ++ c ++ ", " ++ d := fun _ _ _ _ => rfl
  rw [hjoin]
  -- Both sides put the same texts together, in another bracketing.
  apply String.toList_injective
  simp

/-! ## Importing its nodes -/

/-- A planned node as it is imported: under its key, which is also its label if it has none. -/
def importedNode (q : PlannedNode) : Node where
  id := q.key
  label := if q.node.label = "" then q.key else q.node.label
  description := q.node.description
  tools := q.node.tools
  roles := q.node.roles

/-- A field that holds texts has them as parts. -/
theorem fieldParts_texts {fields : List (String × Json)} {name : String} {ss : List String}
    (h : Json.field? fields name = some (.texts ss)) :
    fieldParts fields name = .ok (ss.map .str) := by
  rw [fieldParts, h, Option.getD_some]
  cases ss <;> rfl

/-- Every name of a role is known. -/
theorem filterMap_role?_text (rs : List Role) :
    ((rs.map Role.text).map Json.str).filterMap role? = rs := by
  induction rs with
  | nil => rfl
  | cons r rest ih =>
    have hr : role? (.str r.text) = some r := Role.ofText?_text r
    rw [List.map_cons, List.map_cons, List.filterMap_cons_some hr, ih]

/-- The label that is there, or else the key. -/
theorem firstOf_label (label key : String) : firstOf [.str label, .str key] (.str key) =
    .str (if label = "" then key else label) := by
  have hkey : firstOf [.str key] (.str key) = .str key := by
    rw [firstOf]
    split <;> rfl
  by_cases h : label = ""
  · have hnothing : (Json.str label).isNothing = true := String.isEmpty_iff.2 h
    rw [firstOf, if_pos hnothing, if_pos h, hkey]
  · have hsome : ¬ (Json.str label).isNothing = true := fun hnothing =>
      h (String.isEmpty_iff.1 hnothing)
    rw [firstOf, if_neg hsome, if_neg h]

/-- **A node of the view is imported as it was planned.** -/
theorem importNode_runningNode {q : PlannedNode} (htools : q.node.tools.Nodup)
    (hroles : Role.canonical q.node.roles = q.node.roles) :
    importNode (runningNode q) = .ok (importedNode q) := by
  let fields : List (String × Json) := [("label", .str q.node.label),
    ("description", .str q.node.description), ("roles", .texts (q.node.roles.map Role.text)),
    ("tools", .texts q.node.tools)]
  have hpartsTools : fieldParts fields "tools" = .ok (q.node.tools.map .str) := fieldParts_texts rfl
  have hpartsRoles : fieldParts fields "roles" = .ok ((q.node.roles.map Role.text).map .str) :=
    fieldParts_texts rfl
  show (do
    let tools ← fieldParts fields "tools"
    let roles ← fieldParts fields "roles"
    orError (Schema.node .program (.obj [("id", .str q.key),
      ("label", firstOf [.str q.node.label, .str q.key] (.str q.key)),
      ("description", .str q.node.description), ("tools", .arr tools),
      ("roles", .texts ((roles.filterMap role?).map Role.text))]))) = _
  rw [hpartsTools, hpartsRoles, firstOf_label]
  show orError (Schema.node .program (.obj [("id", .str q.key),
    ("label", .str (importedNode q).label), ("description", .str q.node.description),
    ("tools", .texts q.node.tools),
    ("roles", .texts ((List.filterMap role? _).map Role.text))])) = _
  rw [filterMap_role?_text, node_texts, firstSeen_of_nodup htools, hroles]
  rfl

end Compiled

end AgentFlow
