import AgentFlow.Graph.Basic

/-!
# The tool library

The tools that a node can be given, grouped for the picker. A node may also name tools that are not
in the library; `unknownTools` finds them.
-/

namespace AgentFlow.Catalog

/-- The groups of the tool picker. -/
inductive ToolCategory where
  | research
  | automation
  | collaboration
  | data
  | ops
  deriving DecidableEq, Repr

def ToolCategory.all : List ToolCategory := [.research, .automation, .collaboration, .data, .ops]

def ToolCategory.text : ToolCategory → String
  | .research => "research"
  | .automation => "automation"
  | .collaboration => "collaboration"
  | .data => "data"
  | .ops => "ops"

structure Tool where
  id : String
  name : String
  description : String
  category : ToolCategory
  deriving DecidableEq, Repr

def Tool.toJson (t : Tool) : Json := .obj [
  ("id", .str t.id),
  ("name", .str t.name),
  ("description", .str t.description),
  ("category", .str t.category.text)]

/-- The library. -/
def tools : List Tool := [
  ⟨"web-search", "Web Search", "Search the web and return relevant sources.", .research⟩,
  ⟨"doc-summarizer", "Doc Summarizer", "Condense long content into key points.", .research⟩,
  ⟨"db-query", "DB Query", "Run parameterized queries on a database.", .data⟩,
  ⟨"crm-update", "CRM Update", "Create or update CRM records.", .collaboration⟩,
  ⟨"calendar", "Calendar", "Schedule or move meetings.", .collaboration⟩,
  ⟨"email", "Email", "Draft and send customer-ready emails.", .collaboration⟩,
  ⟨"notion", "Notion", "Write specs and notes to a workspace.", .collaboration⟩,
  ⟨"ticketing", "Ticketing", "Create or update support tickets.", .ops⟩,
  ⟨"webhook", "Webhook", "Trigger external workflows over HTTP.", .automation⟩]

def tool? (id : String) : Option Tool := tools.find? (·.id = id)

/-- The tools of each category, the categories in the order of their first tools. -/
def toolsByCategory : List (ToolCategory × List Tool) :=
  (firstSeen (tools.map (·.category))).map fun c => (c, tools.filter (·.category = c))

/-- The tools of each node that are not in the library, for the nodes that have such tools. The last
of several nodes with one identifier counts, at the place of the first. -/
def unknownTools (nodes : List Node) : List (String × List String) :=
  nodes.foldl (fun found n =>
    match n.tools.filter fun id => (tool? id).isNone with
    | [] => found
    | missing => Json.putField found n.id missing) []

end AgentFlow.Catalog
