import AgentFlow.Proofs.Plan.Branches
import AgentFlow.Proofs.Skeleton.Generation
import AgentFlow.Proofs.Skeleton.Reader

/-!
# What the program of a plan builds

The builder of a plan says its nodes, its entry, its plain edges, its routing tables and its sinks,
in this order: the calls of the plan, which together make its wiring (`ofCalls_calls`). Besides them
it has names of functions and comments. In the program of a plan these are `Legible`: a name is a
name, and a comment does not go beyond its line (`legible_of_plan`).
-/

namespace AgentFlow

open Skeleton Text

variable {α β : Type}

/-! ## The graph of a plan -/

/-- The graph with other names in it. -/
def Skeleton.Wiring.map (f : α → β) (w : Wiring α) : Wiring β where
  nodes := w.nodes.map f
  entries := w.entries.map f
  edges := w.edges.map (Prod.map f f)
  tables := w.tables.map fun (source, rows) => (f source, rows.map (Prod.map f f))
  sinks := w.sinks.map f

theorem Skeleton.Wiring.map_id (w : Wiring α) : w.map id = w := by
  simp [Wiring.map]

def Branch.rows (b : Branch) : List (String × String) := b.routes.map fun r => (r.key, r.target)

namespace Plan

/-- The graph that the programs of a plan build. -/
def wiring (p : Plan) : Wiring String where
  nodes := p.nodes.map PlannedNode.key
  entries := p.entry.toList
  edges := p.edges
  tables := p.branches.map fun b => (b.source, b.rows)
  sinks := p.sinks

/-- The calls that build the graph of a plan, if a literal means what `denote` says. -/
def calls (denote : String → α) (p : Plan) : List (Call α) :=
  p.nodes.map (fun q => .node (denote q.key)) ++
  p.entry.toList.map (fun key => .entry (denote key)) ++
  p.edges.map (fun edge => .edge (denote edge.1) (denote edge.2)) ++
  p.branches.map (fun b => .table (denote b.source) (b.rows.map (Prod.map denote denote))) ++
  p.sinks.map fun key => .sink (denote key)

/-- The calls of a plan make its wiring. -/
theorem ofCalls_calls (denote : String → α) (p : Plan) :
    Wiring.ofCalls (p.calls denote) = p.wiring.map denote := by
  -- calls of one kind come in one block, and the other blocks add nothing to it
  simp [Wiring.ofCalls, calls, wiring, Wiring.map, List.filterMap_append, List.filterMap_map,
    Function.comp_def, Prod.map]

end Plan

/-! ## What a builder is written with -/

/-- What a builder is written with besides the keys in the wiring: a name for the function of each
node and of each branch, and comments. None of these goes beyond its line, and no builder ends in a
comment. -/
structure Skeleton.Legible (p : Plan) (names : FunctionNames) : Prop where
  length_units : names.units.length = p.nodes.length
  length_routers : names.routers.length = p.branches.length
  units : ∀ name ∈ names.units, IsName name
  routers : ∀ name ∈ names.routers, IsName name
  unreachable : ∀ key ∈ p.unreachable, IsName key
  behind : p.unreachable ≠ [] → p.edges ≠ [] ∨ p.branches ≠ [] ∨ p.sinks ≠ []

variable {nodes : List Node} {edges : List Edge} {entryId : Option String} {id : String} {p : Plan}

namespace Plan

/-- The keys of nodes are names by the way they are assigned. -/
theorem isName_keyOf (hid : id ∈ nodeIds nodes) : IsName (keyOf nodes id) :=
  isName_of_mem_assignKeys (keyOf_mem_assignKeys hid)

theorem mem_of_mem_unreachableKeys {keys : List String} {entry : Option String}
    {arrows : List (String × String)} {key : String} (h : key ∈ unreachableKeys keys entry arrows) :
    key ∈ keys := by
  cases entry with
  | none => cases h
  | some start => exact List.mem_of_mem_filter h

/-- What is unreachable is the key of a node. -/
theorem Parts.exists_of_mem_unreachable (h : Parts nodes edges entryId p) {key : String}
    (hkey : key ∈ p.unreachable) : ∃ id ∈ nodeIds nodes, keyOf nodes id = key := by
  rw [h.unreachable_eq] at hkey
  obtain ⟨id, hid, rfl⟩ := List.mem_map.1 (mem_of_mem_unreachableKeys hkey)
  exact ⟨id, h.mem_ids.1 hid, rfl⟩

/-- Where there is a node, there is an edge, a branch or a sink. -/
theorem Parts.ne_nil_of_mem (h : Parts nodes edges entryId p) (hid : id ∈ nodeIds nodes) :
    p.edges ≠ [] ∨ p.branches ≠ [] ∨ p.sinks ≠ [] := by
  by_cases hnil : edgesFrom edges id = []
  · have hsink : keyOf nodes id ∈ p.sinks := by
      rw [h.sinks_eq]
      exact List.mem_map_of_mem (List.mem_filter.2 ⟨h.mem_ids.2 hid, by simpa using hnil⟩)
    exact .inr (.inr (List.ne_nil_of_mem hsink))
  -- an edge leaves the node, and it is plain or belongs to a branch
  obtain ⟨e, he⟩ := List.exists_mem_of_ne_nil _ hnil
  cases hkind : e.isConditional with
  | true =>
    have hconditional : e ∈ conditionalFrom edges id := List.mem_filter.2 ⟨he, hkind⟩
    have hbranch := h.mem_branches.2 ⟨id, hid, List.ne_nil_of_mem hconditional, rfl⟩
    exact .inr (.inl (List.ne_nil_of_mem hbranch))
  | false =>
    have hedge : endKeys nodes e ∈ p.edges := by
      rw [h.edges_eq]
      refine List.mem_map_of_mem (List.mem_filter.2 ⟨?_, by simp [hkind]⟩)
      exact List.mem_flatMap.2 ⟨id, h.mem_ids.2 hid, he⟩
    exact .inl (List.ne_nil_of_mem hedge)

/-! ### Names in a plan -/

/-- A plan has the keys that were assigned. -/
theorem mem_assignKeys_of_mem_keys (h : plan nodes edges entryId = .ok p) {key : String}
    (hkey : key ∈ p.nodes.map PlannedNode.key) : key ∈ assignKeys nodes := by
  have hparts : Parts nodes edges entryId p := parts_of_plan h
  obtain ⟨q, hq, rfl⟩ := List.mem_map.1 hkey
  rw [hparts.keys_eq q hq]
  exact keyOf_mem_assignKeys (hparts.mem_ids.1 (List.mem_map_of_mem hq))

/-- A branch stands at the key of a node. -/
theorem source_mem_keys (h : plan nodes edges entryId = .ok p) {b : Branch}
    (hb : b ∈ p.branches) : b.source ∈ p.nodes.map PlannedNode.key :=
  (resolved_of_plan_eq_ok h).sources.subset (List.mem_map_of_mem hb)

theorem isName_of_mem_keys (h : plan nodes edges entryId = .ok p) {key : String}
    (hkey : key ∈ p.nodes.map PlannedNode.key) : IsName key :=
  isName_of_mem_assignKeys (mem_assignKeys_of_mem_keys h hkey)

theorem isName_key (h : plan nodes edges entryId = .ok p) {q : PlannedNode} (hq : q ∈ p.nodes) :
    IsName q.key := isName_of_mem_keys h (List.mem_map_of_mem hq)

theorem isName_entry (h : plan nodes edges entryId = .ok p) {key : String}
    (hentry : p.entry = some key) : IsName key :=
  isName_of_mem_keys h ((resolved_of_plan_eq_ok h).entry key hentry)

/-- Without an entry the word `none` stands there. -/
theorem isName_entryName (h : plan nodes edges entryId = .ok p) : IsName (entryName p) := by
  rw [entryName]
  cases hentry : p.entry with
  | none => exact ⟨⟨'n', rfl, rfl⟩, List.all_eq_true.1 rfl⟩
  | some key => exact isName_entry h hentry

theorem isName_source (h : plan nodes edges entryId = .ok p) {b : Branch} (hb : b ∈ p.branches) :
    IsName b.source := isName_of_mem_keys h (source_mem_keys h hb)

end Plan

namespace Skeleton

open Plan

variable {d : Dialect}

/-- A dialect that makes names of names writes legible programs. -/
theorem legible_of_plan (h : plan nodes edges entryId = .ok p)
    (hunit : ∀ key, IsName key → IsName (d.unitName key))
    (hrouter : ∀ key, IsName key → IsName (d.routerName key)) :
    Legible p (d.functionNames p) := by
  have hparts : Parts nodes edges entryId p := parts_of_plan h
  -- Wanted names are names, and numbers make names of them again.
  have hnames : ∀ name ∈ freshAll "" [] (p.nodes.map (fun q => d.unitName q.key) ++
      p.branches.map (fun b => d.routerName b.source)), IsName name := by
    refine fun name => isName_of_mem_freshAll (by simp) fun base hbase => ?_
    rcases List.mem_append.1 hbase with hbase | hbase
    · obtain ⟨q, hq, rfl⟩ := List.mem_map.1 hbase
      exact hunit _ (isName_key h hq)
    · obtain ⟨b, hb, rfl⟩ := List.mem_map.1 hbase
      exact hrouter _ (isName_source h hb)
  constructor
  case length_units => exact Dialect.length_units d p
  case length_routers => exact Dialect.length_routers d p
  case units => exact fun name hname => hnames name (List.mem_of_mem_take hname)
  case routers => exact fun name hname => hnames name (List.mem_of_mem_drop hname)
  case unreachable =>
    intro key hkey
    obtain ⟨id, hid, rfl⟩ := hparts.exists_of_mem_unreachable hkey
    exact isName_keyOf hid
  case behind =>
    intro hne
    obtain ⟨key, hkey⟩ := List.exists_mem_of_ne_nil _ hne
    obtain ⟨id, hid, -⟩ := hparts.exists_of_mem_unreachable hkey
    exact hparts.ne_nil_of_mem hid

/-! ## Comments and lists of literals -/

theorem newline_notMem_listLiteral (texts : List String) : '\n' ∉ (listLiteral texts).toList := by
  unfold listLiteral
  simp only [String.toList_append, List.mem_append, not_or]
  exact ⟨⟨by decide, notMem_toList_intercalate (by decide) (by simp [newline_notMem_literal])⟩,
    by decide⟩

/-- The literals of a branch are those of its route keys. -/
theorem routeLiterals_eq_map (b : Branch) :
    routeLiterals b = (b.routes.map Route.key).map literal := by
  rw [List.map_map]
  rfl

theorem newline_notMem_fallbackNote : '\n' ∉ fallbackNote.toList := by
  unfold fallbackNote
  decide

theorem newline_notMem_unreachableNote {keys : List String} (h : ∀ key ∈ keys, IsName key) :
    '\n' ∉ (unreachableNote keys).toList := by
  unfold unreachableNote
  simp only [String.toList_append, List.mem_append, not_or]
  exact ⟨by decide,
    notMem_toList_intercalate (by decide) fun key hkey => (h key hkey).newline_notMem⟩

theorem newline_notMem_renamedNote (key : String) : '\n' ∉ (renamedNote key).toList := by
  unfold renamedNote
  simp [newline_notMem_literal]

/-! ## The end of a program -/

/-- The builder is the last section. -/
theorem exists_sections_eq (d : Dialect) (p : Plan) (project : String) :
    ∃ before, d.gap.intercalate (d.sections p project) =
      before ++ d.wiring p (d.functionNames p) :=
  exists_intercalate_append_singleton ..

end Skeleton

end AgentFlow
