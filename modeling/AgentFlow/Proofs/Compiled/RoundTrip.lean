import AgentFlow.Proofs.Compiled.Edges
import AgentFlow.Proofs.Skeleton.PythonLiterals
import AgentFlow.Proofs.Text.WholeWord

/-!
# Importing the flow of a plan

Planning a graph in canonical form and importing the flow that the generated program runs gives the
graph back, with keys in the place of identifiers (`importFlow_view`). Roles are inferred again, and
none is gained: a node tells of a memory under its key only if it did in the graph
(`tellsOfMemory_of_importedNode`), and as many edges lead out of it.
-/

namespace AgentFlow.Compiled

open Schema Skeleton Text

variable {nodes : List Node} {edges : List Edge} {entryId : Option String} {p : Plan}
  {q : PlannedNode}

/-! ## Roles -/

/-- No word of memory starts as the key of a node without a label does. -/
theorem startsNone_memoryWords : StartsNone (memoryWords.map String.toList) 'n' := by
  have hall : (memoryWords.map String.toList).all
      (fun word => word.head?.any fun letter => !sameLetter letter 'n') = true := by decide +kernel
  intro word hword
  have hhead := List.all_eq_true.1 hall word hword
  rw [Option.any_eq_true] at hhead
  obtain ⟨letter, hletter, hdiffers⟩ := hhead
  obtain ⟨rest, rfl⟩ := List.head?_eq_some_iff.1 hletter
  exact ⟨letter, rest, rfl, by simpa using hdiffers⟩

/-- A key in the place of a missing label adds nothing that tells of a memory. -/
theorem tellsOfMemory_of_importedNode (hq : q ∈ Plan.withKeys nodes)
    (h : (importedNode q).tellsOfMemory = true) : q.node.tellsOfMemory = true := by
  by_cases hlabel : q.node.label = ""
  · rw [Node.tellsOfMemory, Bool.or_eq_true] at h ⊢
    refine h.imp_left fun hprose => ?_
    obtain ⟨cs, hcs⟩ := Plan.exists_cons_key_of_label_eq_empty hq hlabel
    have hkey : q.key ∈ Plan.assignKeys nodes := by
      rw [← Plan.map_key_withKeys]
      exact List.mem_map_of_mem hq
    have hname : IsName q.key := Plan.isName_of_mem_assignKeys hkey
    have hword : ∀ c ∈ 'n' :: cs, isWordChar c = true := fun c hc =>
      isWordChar_of_isNameChar (hname.chars c (hcs ▸ hc))
    -- The key stands before the description as a word of its own, and no word of memory starts as
    -- it does.
    have hkeyed : (importedNode q).prose.toList =
        'n' :: cs ++ (" " ++ q.node.description).toList := by
      simp [Node.prose, importedNode, hlabel, hcs]
    have hplain : q.node.prose.toList = (" " ++ q.node.description).toList := by
      simp [Node.prose, hlabel]
    rw [hkeyed, mentionsAny_append (hword _ List.mem_cons_self)
      (fun c hc => hword c (List.mem_cons_of_mem _ hc)) startsNone_memoryWords] at hprose
    rw [hplain]
    exact mentionsAny_of_true hprose
  · have hsame : (importedNode q).tellsOfMemory = q.node.tellsOfMemory := by
      simp [Node.tellsOfMemory, Node.prose, importedNode, hlabel]
    rwa [hsame] at h

/-- A key in the place of a label shows no role. -/
theorem signalledRoles_importedNode_subset (hq : q ∈ Plan.withKeys nodes) (fanOut : Nat) :
    (importedNode q).signalledRoles fanOut ⊆ q.node.signalledRoles fanOut := by
  intro role hrole
  rw [Node.signalledRoles, List.mem_filter] at hrole ⊢
  refine ⟨hrole.1, ?_⟩
  cases role with
  | memory => exact tellsOfMemory_of_importedNode hq hrole.2
  | _ => exact hrole.2

/-- Inference leaves the roles of an imported node alone if it left those of the planned one. -/
theorem inferRoles_importedNode (hq : q ∈ Plan.withKeys nodes) {fanOut : Nat}
    (h : q.node.inferRoles fanOut = q.node) :
    (importedNode q).inferRoles fanOut = importedNode q := by
  obtain ⟨hcanonical, hsub⟩ := (q.node.inferRoles_eq_self_iff fanOut).1 h
  refine ((importedNode q).inferRoles_eq_self_iff fanOut).2 ⟨hcanonical, ?_⟩
  exact fun role hrole => hsub (signalledRoles_importedNode_subset hq fanOut hrole)

/-! ## Nodes and the name -/

/-- Nodes are imported one by one. -/
theorem mapM_importNode {qs : List PlannedNode}
    (h : ∀ q ∈ qs, importNode (runningNode q) = .ok (importedNode q)) :
    (qs.map runningNode).mapM importNode = .ok (qs.map importedNode) := by
  induction qs with
  | nil => rfl
  | cons q rest ih =>
    obtain ⟨hq, hrest⟩ := List.forall_mem_cons.1 h
    rw [List.map_cons, List.mapM_cons, hq, ih hrest]
    rfl

/-- Of texts, some missing, with a text at the end, the first that is there is a text. -/
theorem exists_firstOf_eq_str {vs : List Json} (h : ∀ v ∈ vs, IsTextOrNull v) (last : String) :
    ∃ s, firstOf vs (.str last) = .str s := by
  induction vs with
  | nil => exact ⟨last, rfl⟩
  | cons v rest ih =>
    obtain ⟨hv, hrest⟩ := List.forall_mem_cons.1 h
    rw [firstOf]
    split
    · exact ih hrest
    · next hsome =>
      refine hv.resolve_left ?_
      rintro rfl
      exact hsome rfl

theorem orError_text (s : String) : orError ((text (.str s)).under (.field "name")) = .ok s := rfl

/-! ## Nodes of a plan -/

section Planned

variable (hplan : plan nodes edges entryId = .ok p) (hcanonical : IsCanonical nodes edges)

include hplan

/-- A planned node is one of the graph's. -/
theorem node_mem_of_plan (hq : q ∈ p.nodes) : q.node ∈ nodes :=
  (Plan.resolved_of_plan_eq_ok hplan).nodes_perm.mem_iff.1 (List.mem_map_of_mem hq)

include hcanonical

/-- In canonical form, inference leaves the roles of a planned node alone. -/
theorem inferRoles_of_plan (hq : q ∈ p.nodes) :
    q.node.inferRoles (outDegree edges q.node.id) = q.node :=
  (isCanonical_iff.1 hcanonical).2 q.node (node_mem_of_plan hplan hq)

/-- The nodes of a view are read one by one, each as it was planned. -/
theorem mapM_importNode_view (htools : ∀ n ∈ nodes, n.tools.Nodup) {flow : RunningFlow}
    (hview : IsViewOf p flow) :
    (flow.nodes.filter fun n => !isTerminal n.key).mapM importNode =
      .ok (p.nodes.map importedNode) := by
  rw [hview.nodes]
  refine mapM_importNode fun q hq => ?_
  have hroles : Role.canonical q.node.roles = q.node.roles :=
    ((q.node.inferRoles_eq_self_iff _).1 (inferRoles_of_plan hplan hcanonical hq)).1
  exact importNode_runningNode (htools q.node (node_mem_of_plan hplan hq)) hroles

/-- As many edges lead out of a key as out of its node, so inference leaves the imported nodes
alone. -/
theorem inferRoles_map_importedNode {core : List Edge}
    (hcore : (core.map Edge.unnamed).Perm (edges.map (unrouted nodes))) (nodes' : List Node) :
    inferRoles (p.nodes.map importedNode) (Routing.normalize nodes' core []) =
      p.nodes.map importedNode := by
  have hgraph : Intact nodes edges := (Plan.plan_eq_ok_iff_assemble.1 hplan).1
  rw [inferRoles, List.map_map]
  refine List.map_congr_left fun q hq => ?_
  have hid : q.node.id ∈ nodeIds nodes := id_mem_nodeIds (node_mem_of_plan hplan hq)
  have hkey : (importedNode q).id = Plan.keyOf nodes q.node.id :=
    (Plan.parts_of_plan hplan).keys_eq q hq
  -- The degree at the key is that of the node, for which inference is known to add nothing.
  rw [Function.comp_apply, Routing.outDegree_normalize, hkey, outDegree_keyOf hgraph hcore hid]
  exact inferRoles_importedNode (Plan.mem_withKeys_of_plan hplan hq)
    (inferRoles_of_plan hplan hcanonical hq)

end Planned

/-! ## The round trip -/

/-- The graph is what is left of some nodes and edges that have been planned: the nodes in the order
of the plan and under their keys, and the edges between those keys, in any order and under any
identifiers. -/
structure IsImportOf (nodes : List Node) (edges : List Edge) (p : Plan) (g : Graph) : Prop where
  planned_perm : (p.nodes.map PlannedNode.node).Perm nodes
  keys_eq : ∀ q ∈ p.nodes, q.key = Plan.keyOf nodes q.node.id
  nodes_eq : g.nodes = p.nodes.map importedNode
  edges_perm : (g.edges.map Edge.unnamed).Perm (edges.map (betweenKeys nodes))

/-- The metadata in the view of a node is spelled as in the program, and Python reads it as the
texts of the node exactly if these keep to the basic plane. -/
structure IsMetadataOf (q : PlannedNode) : Prop where
  spelled : (metadataOf q.node).compact = Python.metadata q
  read_iff : Python.readStrings (Python.metadata q).toList =
      some ((Python.metadataTexts q).map Python.codePoints) ↔
    ∀ text ∈ q.node.label :: q.node.description :: q.node.tools, Python.IsBasic text

theorem isMetadataOf (q : PlannedNode) : IsMetadataOf q where
  spelled := compact_metadataOf q
  read_iff := Python.readStrings_metadata_iff q

/-- **Planning and importing gives a graph back** that is in canonical form and has no route key
twice at a node. The metadata in the view is spelled as the generated program has written it; what
the running program holds is the same as long as all texts keep to the basic plane. -/
theorem importFlow_view (hcanonical : IsCanonical nodes edges)
    (htools : ∀ n ∈ nodes, n.tools.Nodup) (hplan : plan nodes edges entryId = .ok p)
    {checkedEntry : Option String}
    (hissues : ∀ issue ∈ validate nodes edges checkedEntry, issue.code ≠ "duplicate_route_key")
    {flow : RunningFlow} (hview : IsViewOf p flow) (name : Option String) :
    (∀ q ∈ p.nodes, IsMetadataOf q) ∧
      ∃ g, importFlow flow (.ofOption name) = .ok g ∧ IsImportOf nodes edges p g := by
  have hgraph : Intact nodes edges := (Plan.plan_eq_ok_iff_assemble.1 hplan).1
  have hsettled : KeysSettled edges := keysSettled_of_isCanonical hcanonical
  have hnodes := mapM_importNode_view hplan hcanonical htools hview
  -- The imported edges lead between the keys, and routing them puts their kinds right.
  have hcore : ((importEdges flow.edges).map Edge.unnamed).Perm (edges.map (unrouted nodes)) :=
    importEdges_view_perm hplan hsettled (nodup_explicitKeys hsettled.keyed hissues) hview
  have hedges := map_unnamed_normalize_perm hgraph hcore hcanonical (p.nodes.map importedNode)
  have hroles := inferRoles_map_importedNode hplan hcanonical hcore (p.nodes.map importedNode)
  have hname : ∃ s, firstOf [.ofOption name, flow.name] (.str defaultFlowName) = .str s := by
    refine exists_firstOf_eq_str (List.forall_mem_cons.2 ⟨?_, ?_⟩) _
    · cases name with
      | none => exact Or.inl rfl
      | some s => exact Or.inr ⟨s, rfl⟩
    · exact List.forall_mem_singleton.2 hview.name
  obtain ⟨s, hs⟩ := hname
  refine ⟨fun q _ => isMetadataOf q, ⟨s, p.nodes.map importedNode, Routing.normalize
    (p.nodes.map importedNode) (importEdges flow.edges) []⟩, ?imported, ?isImport⟩
  case imported =>
    rw [importFlow, hnodes]
    show (do
      let name ← orError ((text (firstOf [.ofOption name, flow.name] (.str defaultFlowName))).under
        (.field "name"))
      return Graph.mk name (inferRoles (p.nodes.map importedNode) _) _) = _
    rw [hs, orError_text, hroles]
    rfl
  case isImport =>
    constructor
    case planned_perm => exact (Plan.resolved_of_plan_eq_ok hplan).nodes_perm
    case keys_eq => exact (Plan.parts_of_plan hplan).keys_eq
    case nodes_eq => rfl
    case edges_perm => exact hedges

/-- A node without a label chooses between two that have one. -/
def choiceNodes : List Node := [
  { id := "1", description := "picks a way", roles := [.agent, .router] },
  { id := "2", label := "Look up", tools := ["notion"], roles := [.agent, .tool, .memory] },
  { id := "3", label := "Answer", roles := [.agent] }]

/-- The choice, and a loop back to it. -/
def choiceEdges : List Edge := [
  { source := "1", target := "3", kind := .conditional, routeKey := some "known" },
  { source := "1", target := "2", kind := .conditional, routeKey := some "unknown" },
  { source := "2", target := "1" }]

theorem importFlow_view_choice : IsCanonical choiceNodes choiceEdges ∧
    (∀ n ∈ choiceNodes, n.tools.Nodup) ∧
    (∀ issue ∈ validate choiceNodes choiceEdges none, issue.code ≠ "duplicate_route_key") ∧
    ∃ p, plan choiceNodes choiceEdges none = .ok p ∧ IsViewOf p (viewOf p) ∧
      (∀ q ∈ p.nodes, (metadataOf q.node).compact = Python.metadata q ∧
        Python.readStrings (Python.metadata q).toList =
          some ((Python.metadataTexts q).map Python.codePoints)) ∧
      ∃ g, importFlow (viewOf p) (.ofOption none) = .ok g ∧
        IsImportOf choiceNodes choiceEdges p g := by
  have hcanonical : IsCanonical choiceNodes choiceEdges := by decide +kernel
  have htools : ∀ n ∈ choiceNodes, n.tools.Nodup := by decide +kernel
  have hissues : ∀ issue ∈ validate choiceNodes choiceEdges none,
      issue.code ≠ "duplicate_route_key" := by decide +kernel
  have hplan : ∃ p, plan choiceNodes choiceEdges none = .ok p ∧ ∀ q ∈ p.nodes,
      ∀ text ∈ q.node.label :: q.node.description :: q.node.tools, Python.IsBasic text :=
    ⟨_, rfl, by decide +kernel⟩
  obtain ⟨p, hp, hbasic⟩ := hplan
  have hview : IsViewOf p (viewOf p) := isViewOf_viewOf (Plan.resolved_of_plan_eq_ok hp)
  obtain ⟨hmetadata, himport⟩ := importFlow_view hcanonical htools hp hissues hview none
  exact ⟨hcanonical, htools, hissues, p, hp, hview, fun q hq =>
    ⟨(hmetadata q hq).spelled, (hmetadata q hq).read_iff.2 (hbasic q hq)⟩, himport⟩

end AgentFlow.Compiled
