import AgentFlow.Proofs.Plan.Assembly

/-!
# Routing tables

The rows of a branch have the targets of the node's conditional edges, in order, under fresh names
of the edges' keys (`map_key_branchFrom`). So the keys of a table are all distinct, and the keys
that a branch reports as renamed are those that were taken when their edge came
(`renamed_branchFrom`).
-/

namespace AgentFlow.Plan

open Text

variable {nodes : List Node} {edges : List Edge} {entryId : Option String} {id : String}

/-! ## Adding routes one by one -/

/-- A route that is added gets a fresh name of the key that it asks for. -/
theorem map_key_foldl_add (b : Branch) (wires : List Wire) :
    (wires.foldl (fun b w => Branch.add b (routeKey w) w.target) b).routes.map Route.key =
      b.routes.map Route.key ++
        freshAll "_" (b.routes.map Route.key) (wires.map routeKey) := by
  induction wires generalizing b with
  | nil => simp [freshAll]
  | cons w rest ih =>
    rw [List.foldl_cons, ih]
    simp only [Branch.add, List.map_append, List.map_cons, List.map_nil, freshAll,
      List.append_assoc, List.cons_append, List.nil_append]
    -- The key that was given last stands at the end of the one list and at the front of the other.
    rw [freshAll_perm (List.perm_append_singleton _ _)]

/-- A branch reports the keys that were taken when their routes were added. -/
theorem renamed_foldl_add (b : Branch) (wires : List Wire) :
    (wires.foldl (fun b w => Branch.add b (routeKey w) w.target) b).renamed =
      b.renamed ++ clashes "_" (b.routes.map Route.key) (wires.map routeKey) := by
  induction wires generalizing b with
  | nil => simp [clashes]
  | cons w rest ih =>
    rw [List.foldl_cons, ih]
    simp only [Branch.add, List.map_append, List.map_cons, List.map_nil, clashes]
    rw [clashes_perm (List.perm_append_singleton _ _)]
    split <;> simp

/-! ## The branch of a node -/

/-- The key that an edge asks for: its own, or else the key of its target. -/
def wantedKey (nodes : List Node) (e : Edge) : String := routeKey (wireOf nodes e)

variable (nodes id) (es : List Edge)

@[simp] theorem source_branchFrom : (branchFrom nodes id es).source = keyOf nodes id :=
  source_foldl_add _ _

/-- The rows lead to the targets of the edges, in order. -/
theorem map_target_branchFrom :
    (branchFrom nodes id es).routes.map Route.target = es.map fun e => keyOf nodes e.target := by
  rw [branchFrom, branchOf, map_target_foldl_add, List.map_map]
  rfl

/-- The keys of the rows are fresh names of the keys that the edges ask for. -/
theorem map_key_branchFrom :
    (branchFrom nodes id es).routes.map Route.key = freshAll "_" [] (es.map (wantedKey nodes)) := by
  rw [branchFrom, branchOf, map_key_foldl_add, List.map_map]
  rfl

/-- The renamed keys are those that were taken before. -/
theorem renamed_branchFrom :
    (branchFrom nodes id es).renamed = clashes "_" [] (es.map (wantedKey nodes)) := by
  rw [branchFrom, branchOf, renamed_foldl_add, List.map_map]
  rfl

theorem routes_branchFrom : (branchFrom nodes id es).routes =
    List.zipWith Route.mk (freshAll "_" [] (es.map (wantedKey nodes)))
      (es.map fun e => keyOf nodes e.target) := by
  rw [← map_key_branchFrom, ← map_target_branchFrom, List.zipWith_map, List.zipWith_self]
  exact (List.map_id _).symm

/-- No two rows of a table have the same key. -/
theorem nodup_keys_branchFrom : ((branchFrom nodes id es).routes.map Route.key).Nodup := by
  rw [map_key_branchFrom]
  exact nodup_freshAll "_" [] _

@[simp] theorem length_routes_branchFrom : (branchFrom nodes id es).routes.length = es.length := by
  have h := congrArg List.length (map_target_branchFrom nodes id es)
  rwa [List.length_map, List.length_map] at h

variable {nodes id}

/-! ## The branches of a plan -/

variable {p : Plan}

theorem Parts.nodup_ids (h : Parts nodes edges entryId p) (hids : (nodeIds nodes).Nodup) :
    p.ids.Nodup :=
  h.ids_perm.nodup_iff.2 hids

theorem Parts.mem_ids (h : Parts nodes edges entryId p) : id ∈ p.ids ↔ id ∈ nodeIds nodes :=
  h.ids_perm.mem_iff

/-- The branches of a plan are those of the nodes with conditional edges. -/
theorem Parts.mem_branches (h : Parts nodes edges entryId p) {b : Branch} :
    b ∈ p.branches ↔ ∃ id ∈ nodeIds nodes, conditionalFrom edges id ≠ [] ∧
      branchFrom nodes id (conditionalFrom edges id) = b := by
  simp [h.branches_eq, h.mem_ids, and_assoc]

/-- At the key of a node there is the branch of the node, if it has conditional edges. -/
theorem Parts.mem_branches_at (h : Parts nodes edges entryId p) (hid : id ∈ nodeIds nodes)
    {b : Branch} : b ∈ p.branches ∧ b.source = keyOf nodes id ↔
      conditionalFrom edges id ≠ [] ∧ b = branchFrom nodes id (conditionalFrom edges id) := by
  rw [h.mem_branches]
  constructor
  · rintro ⟨⟨id', hid', hne, rfl⟩, hsource⟩
    rw [source_branchFrom, keyOf_inj hid' hid] at hsource
    exact hsource ▸ ⟨hne, rfl⟩
  · rintro ⟨hne, rfl⟩
    exact ⟨⟨id, hid, hne, rfl⟩, source_branchFrom ..⟩

/-- No node has two branches. -/
theorem Parts.nodup_sources (h : Parts nodes edges entryId p) (hids : (nodeIds nodes).Nodup) :
    (p.branches.map Branch.source).Nodup := by
  rw [h.branches_eq, List.map_map]
  -- Nodes with branches are distinct, and so are their keys.
  refine List.Nodup.map_on ?_ ((h.nodup_ids hids).filter _)
  intro id hid id' hid' hkey
  simp only [Function.comp_apply, source_branchFrom] at hkey
  exact (keyOf_inj (h.mem_ids.1 (List.mem_filter.1 hid).1)
    (h.mem_ids.1 (List.mem_filter.1 hid').1)).1 hkey

/-- At the key of a node, there is one branch or none. -/
theorem Parts.filter_branches (h : Parts nodes edges entryId p) (hids : (nodeIds nodes).Nodup)
    (hid : id ∈ nodeIds nodes) : p.branches.filter (·.source = keyOf nodes id) =
      if conditionalFrom edges id = [] then []
      else [branchFrom nodes id (conditionalFrom edges id)] := by
  split
  · next hnil =>
    rw [List.filter_eq_nil_iff]
    intro b hb hsource
    exact ((h.mem_branches_at hid).1 ⟨hb, of_decide_eq_true hsource⟩).1 hnil
  · next hne =>
    obtain ⟨hb, hsource⟩ := (h.mem_branches_at hid).2 ⟨hne, rfl⟩
    rw [← hsource]
    exact filter_eq_singleton (h.nodup_sources hids) hb

end AgentFlow.Plan
