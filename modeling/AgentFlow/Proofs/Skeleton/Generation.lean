import AgentFlow.Skeleton.Target
import AgentFlow.Proofs.Plan.Basic
import AgentFlow.Proofs.Validation.Findings

/-!
# When a program is generated

Generation fails for a target that goes by no name and for a graph in which validation finds
structural corruption, and for nothing else (`generate_str_iff`): where there is a plan, all that a
plan refers to is resolved, and rendering finds every function name that it looks up.
-/

namespace AgentFlow

open Plan (Resolved)

/-! ## Looking up function names -/

namespace Skeleton.Dialect

variable (d : Dialect) (p : Plan)

/-- There are as many names as nodes and branches. -/
@[simp] theorem length_units : (d.functionNames p).units.length = p.nodes.length := by
  simp [functionNames]

@[simp] theorem length_routers : (d.functionNames p).routers.length = p.branches.length := by
  simp [functionNames]

/-- The function names of the nodes by their keys. -/
def unitTable : List (String × String) :=
  (p.nodes.map PlannedNode.key).zip (d.functionNames p).units

/-- The names of the functions that choose routes by the keys that they stand at. -/
def routerTable : List (String × String) :=
  (p.branches.map Branch.source).zip (d.functionNames p).routers

/-- Every node and every branch finds its own function name in the tables, and every branch is the
one that is found at its node. -/
structure Named : Prop where
  units : p.nodes.map (fun q => (d.unitTable p).lookup q.key) = (d.functionNames p).units.map some
  routers : p.branches.map (fun b => (d.routerTable p).lookup b.source) =
    (d.functionNames p).routers.map some
  branches : ∀ b ∈ p.branches, branchAt p b.source = some b

variable {d p}

/-- No two branches stand at one key, so the first that is found is the branch. -/
theorem branchAt_source (h : (p.branches.map Branch.source).Nodup) {b : Branch}
    (hb : b ∈ p.branches) : branchAt p b.source = some b := by
  cases hfind : branchAt p b.source with
  | none =>
    rw [branchAt, List.find?_eq_none] at hfind
    simpa using hfind b hb
  | some b' =>
    have hmem := List.mem_of_find?_eq_some hfind
    have hsource : b'.source = b.source := by simpa using List.find?_some hfind
    rw [List.inj_on_of_nodup_map h hmem hb hsource]

/-- In a plan that is resolved every name that rendering looks up is found. -/
theorem named_of_resolved {nodes : List Node} {edges : List Edge} (h : Resolved nodes edges p) :
    d.Named p := by
  -- Branches stand at some of the planned nodes' keys, so no two stand at the same one.
  have hsources : (p.branches.map Branch.source).Nodup := h.nodup_keys.sublist h.sources
  have hunits := map_lookup_zip (d.functionNames p).units h.nodup_keys (by simp)
  have hrouters := map_lookup_zip (d.functionNames p).routers hsources (by simp)
  rw [List.map_map] at hunits hrouters
  exact ⟨hunits, hrouters, fun b hb => branchAt_source hsources hb⟩

end Skeleton.Dialect

variable {nodes : List Node} {edges : List Edge} {entryId : Option String}

/-! ## Generation -/

namespace Target

/-- Some target goes by the text, whatever its case and the blanks around it. -/
def IsAlias (s : String) : Prop :=
  String.ofList (Text.lower (Text.trim s).toList) ∈ aliases.map Prod.fst

theorem named?_eq_none_iff {s : String} : named? s = none ↔ ¬ IsAlias s := lookup_eq_none_iff_notMem

theorem isAlias_of_named?_eq_some {s : String} {t : Target} (h : named? s = some t) :
    IsAlias s := by
  by_contra hnot
  rw [named?_eq_none_iff.2 hnot] at h
  cases h

/-- A text is a target as it stands. -/
theorem ofJson_str (s : String) : ofJson (.str s) =
    match named? s with
    | some t => .ok t
    | none => .error (.unknownTarget (.str s)) := by
  cases hnamed : named? s with
  | none => simp only [ofJson, Json.plain, hnamed]
  | some t => simp only [ofJson, Json.plain, hnamed]

end Target

variable {target : String} {project : Option String}

/-- The target is checked before anything else. -/
theorem generate_of_named?_eq_none (h : Target.named? target = none) :
    generate (.str target) nodes edges entryId project = .error (.unknownTarget (.str target)) := by
  rw [generate, Target.ofJson_str, h]
  rfl

/-- Behind the target, only planning can fail. -/
theorem generate_of_named?_eq_some {t : Target} (h : Target.named? target = some t) :
    generate (.str target) nodes edges entryId project =
      match plan nodes edges entryId with
      | .ok p => .ok (p.program t project)
      | .error reason => .error (.noPlan reason) := by
  rw [generate, Target.ofJson_str, h]
  rfl

/-- What generation answers. It fails for a target that goes by no name, else for a corrupt graph;
in every other case there is a plan, all that it refers to is resolved, every function name that is
looked up is found, and the answer is the program of the plan. -/
theorem generate_str_iff (target : String) (nodes : List Node) (edges : List Edge)
    (entryId project : Option String) :
    (generate (.str target) nodes edges entryId project = .error (.unknownTarget (.str target)) ↔
      ¬ Target.IsAlias target) ∧
    ((∃ reason, generate (.str target) nodes edges entryId project = .error (.noPlan reason)) ↔
      Target.IsAlias target ∧ IsCorrupt nodes edges entryId) ∧
    ((∃ t p, Target.named? target = some t ∧ plan nodes edges entryId = .ok p ∧
        Resolved nodes edges p ∧ t.dialect.Named p ∧
        generate (.str target) nodes edges entryId project = .ok (p.program t project)) ↔
      Target.IsAlias target ∧ ¬ IsCorrupt nodes edges entryId) := by
  cases hnamed : Target.named? target with
  | none =>
    have halias : ¬ Target.IsAlias target := Target.named?_eq_none_iff.1 hnamed
    simp [generate_of_named?_eq_none hnamed, halias]
  | some t =>
    have halias : Target.IsAlias target := Target.isAlias_of_named?_eq_some hnamed
    -- What is not corrupt is what has a plan, so the outcome of planning decides.
    rw [isCorrupt_iff, generate_of_named?_eq_some hnamed, ← Plan.exists_plan_iff entryId]
    cases hplan : plan nodes edges entryId with
    | error reason => simp [halias]
    | ok p =>
      have hresolved := Plan.resolved_of_plan_eq_ok hplan
      simp [halias, hresolved, Skeleton.Dialect.named_of_resolved hresolved]

end AgentFlow
