import AgentFlow.Proofs.Renaming.Plan
import AgentFlow.Skeleton.Target
import Mathlib.SetTheory.Cardinal.Arithmetic

/-!
# Other identifiers, the same program

A program is written from keys, labels and other texts; of the identifiers that the planned nodes
carry, no dialect writes any. So a graph gives the same programs under other identifiers
(`generate_rename`). Only the identifiers that occur in the graph count: a renaming is as good as
one of all texts if it keeps those apart (`exists_injective_extension`).
-/

namespace AgentFlow

variable {f : String → String} {nodes : List Node} {edges : List Edge} {entryId : Option String}

/-! ## Rendering -/

namespace Skeleton

variable {p : Plan}

/-- What a dialect writes says nothing of identifiers. -/
structure Dialect.IgnoresIds (d : Dialect) : Prop where
  header : ∀ f p project, d.header (Plan.rename f p) project = d.header p project
  unit : ∀ f q name branch, d.unit (PlannedNode.rename f q) name branch = d.unit q name branch
  wiring : ∀ f p names, d.wiring (Plan.rename f p) names = d.wiring p names

/-- What is written for each node, if it says nothing of identifiers, stays. -/
theorem map_zip_rename {α : Type} {g : PlannedNode × String → α} (f : String → String)
    (hg : ∀ q name, g (q.rename f, name) = g (q, name)) (planned : List PlannedNode)
    (names : List String) :
    ((planned.map (PlannedNode.rename f)).zip names).map g = (planned.zip names).map g := by
  rw [List.zip_map_left, List.map_map]
  exact List.map_congr_left fun entry _ => hg entry.1 entry.2

theorem flatMap_zip_rename {α : Type} {g : PlannedNode × String → List α} (f : String → String)
    (hg : ∀ q name, g (q.rename f, name) = g (q, name)) (planned : List PlannedNode)
    (names : List String) :
    ((planned.map (PlannedNode.rename f)).zip names).flatMap g = (planned.zip names).flatMap g := by
  rw [List.flatMap_def, map_zip_rename f hg, List.flatMap_def]

theorem nodes_rename (f : String → String) (p : Plan) :
    (p.rename f).nodes = p.nodes.map (PlannedNode.rename f) := rfl

theorem isEmpty_rename (f : String → String) (p : Plan) :
    (p.rename f).nodes.isEmpty = p.nodes.isEmpty := List.isEmpty_map

theorem length_rename (f : String → String) (p : Plan) :
    (p.rename f).nodes.length = p.nodes.length := List.length_map _

section Node

variable (f : String → String) (q : PlannedNode)

theorem title_rename : title (q.rename f) = title q := rfl

theorem descriptionLines_rename : descriptionLines (q.rename f) = descriptionLines q := rfl

theorem roleNames_rename : roleNames (q.rename f) = roleNames q := rfl

theorem toolNames_rename (escape : String → String) :
    toolNames escape (q.rename f) = toolNames escape q := rfl

theorem tools_rename : (q.rename f).node.tools = q.node.tools := rfl

end Node

/-- The Python dialect writes no identifiers. -/
theorem ignoresIds_python : Python.dialect.IgnoresIds where
  header f p project := by
    have hentry : entryName (p.rename f) = entryName p := rfl
    have hbranches : (p.rename f).branches = p.branches := rfl
    show Python.header _ _ = Python.header _ _
    rw [Python.header, length_rename, hentry, hbranches, Python.header]
  unit f q name branch := by
    show Python.unit _ _ _ = Python.unit _ _ _
    rw [Python.unit, Python.docstring, Python.description, title_rename, descriptionLines_rename,
      roleNames_rename, toolNames_rename, tools_rename, Python.unit, Python.docstring,
      Python.description]
  wiring f p names := by
    show Python.wiring _ _ = Python.wiring _ _
    rw [Python.wiring, Python.statements, isEmpty_rename, nodes_rename, flatMap_zip_rename]
    · rfl
    · exact fun _ _ => rfl

/-- Nor does the TypeScript dialect. -/
theorem ignoresIds_typeScript : TypeScript.dialect.IgnoresIds where
  header f p project := by
    have hentry : entryName (p.rename f) = entryName p := rfl
    show TypeScript.header _ _ = TypeScript.header _ _
    rw [TypeScript.header, length_rename, hentry, TypeScript.header]
  unit f q name branch := by
    show TypeScript.unit _ _ _ = TypeScript.unit _ _ _
    rw [TypeScript.unit, TypeScript.docComment, TypeScript.description, title_rename,
      descriptionLines_rename, roleNames_rename, toolNames_rename, tools_rename, TypeScript.unit,
      TypeScript.docComment, TypeScript.description]
  wiring f p names := by
    show TypeScript.wiring _ _ = TypeScript.wiring _ _
    rw [TypeScript.wiring, TypeScript.calls, isEmpty_rename, nodes_rename, map_zip_rename]
    · rfl
    · exact fun _ _ => rfl

variable {d : Dialect}

/-- Functions are named after keys. -/
theorem functionNames_rename (d : Dialect) (f : String → String) (p : Plan) :
    d.functionNames (p.rename f) = d.functionNames p := by
  have hwanted : (p.rename f).nodes.map (fun q => d.unitName q.key) =
      p.nodes.map fun q => d.unitName q.key := by
    rw [Plan.rename, List.map_map]
    rfl
  rw [Dialect.functionNames, hwanted, length_rename]
  rfl

/-- So a dialect that ignores identifiers writes the same sections. -/
theorem sections_rename (h : d.IgnoresIds) (f : String → String) (p : Plan) (project : String) :
    d.sections (p.rename f) project = d.sections p project := by
  rw [Dialect.sections, functionNames_rename, h.header, h.wiring, nodes_rename, map_zip_rename]
  · rfl
  · exact fun q name => h.unit f q name _

end Skeleton

theorem Target.ignoresIds_dialect (target : Target) : target.dialect.IgnoresIds := by
  cases target with
  | python => exact Skeleton.ignoresIds_python
  | typescript => exact Skeleton.ignoresIds_typeScript

/-- The program of a plan does not change with the identifiers in it. -/
theorem program_rename (f : String → String) (p : Plan) (target : Target)
    (project : Option String) : (p.rename f).program target project = p.program target project := by
  rw [Plan.program, Skeleton.Dialect.render,
    Skeleton.sections_rename target.ignoresIds_dialect]
  rfl

/-- Generation gives the same program, if it gives one. -/
theorem generate_rename_of_injective (hf : Function.Injective f) (target : Json)
    (project : Option String) (code : String) :
    generate target (nodes.map (Node.rename f)) (edges.map (Edge.rename f)) (entryId.map f)
        project = .ok code ↔
      generate target nodes edges entryId project = .ok code := by
  rw [generate, generate]
  -- The target is read from a value that has no identifiers in it.
  cases Target.ofJson target with
  | error reason => exact Iff.rfl
  | ok t =>
    cases hplan : plan nodes edges entryId with
    | ok p =>
      rw [Plan.plan_rename hf hplan]
      show Except.ok ((p.rename f).program t project) = _ ↔ _
      rw [program_rename]
      rfl
    | error reason =>
      -- There is no plan under the other identifiers either, for whatever reason.
      cases hrenamed : plan (nodes.map (Node.rename f)) (edges.map (Edge.rename f))
          (entryId.map f) with
      | error reason' => exact ⟨fun h => (nomatch h), fun h => (nomatch h)⟩
      | ok p' =>
        obtain ⟨p, hp⟩ := (Plan.exists_plan_rename_iff hf).1 ⟨p', hrenamed⟩
        rw [hplan] at hp
        cases hp

/-! ## Identifiers that occur -/

/-- The identifiers that occur in a graph and as its entry. -/
def identifiers (nodes : List Node) (edges : List Edge) (entryId : Option String) : List String :=
  nodeIds nodes ++ edges.flatMap (fun e => [e.source, e.target]) ++ entryId.toList

/-- A renaming that keeps some identifiers apart is, on those, one that keeps all texts apart. -/
theorem exists_injective_extension {ids : List String} (hf : Set.InjOn f {id | id ∈ ids}) :
    ∃ g : String → String, Function.Injective g ∧ ∀ id ∈ ids, g id = f id := by
  have hfinite : Cardinal.mk {id | id ∈ ids} < Cardinal.mk String :=
    lt_of_lt_of_le (Cardinal.lt_aleph0_iff_set_finite.2 ids.finite_toSet)
      (Cardinal.aleph0_le_mk String)
  -- There are fewer identifiers than texts, so an injection of the former extends to the latter.
  obtain ⟨g, hg⟩ := Cardinal.extend_function_of_lt ⟨_, Set.injOn_iff_injective.1 hf⟩ hfinite
    ⟨Equiv.refl String⟩
  exact ⟨g, g.injective, fun id hid => hg ⟨id, hid⟩⟩

section Congruence

variable {g : String → String}

/-- Renamings that agree on the identifiers of nodes rename the nodes alike. -/
theorem map_renameNode_congr (h : ∀ id ∈ nodeIds nodes, g id = f id) :
    nodes.map (Node.rename g) = nodes.map (Node.rename f) := by
  refine List.map_congr_left fun n hn => ?_
  rw [Node.rename, h n.id (id_mem_nodeIds hn), Node.rename]

/-- Renamings that agree on the ends of edges rename the edges alike. -/
theorem map_renameEdge_congr (h : ∀ e ∈ edges, g e.source = f e.source ∧ g e.target = f e.target) :
    edges.map (Edge.rename g) = edges.map (Edge.rename f) := by
  refine List.map_congr_left fun e he => ?_
  rw [Edge.rename, (h e he).1, (h e he).2, Edge.rename]

/-- Renamings that agree on the identifiers in a plan rename it alike. -/
theorem Plan.rename_congr {p : Plan} (h : ∀ id ∈ p.ids, g id = f id) : p.rename g = p.rename f := by
  have hnodes : p.nodes.map (PlannedNode.rename g) = p.nodes.map (PlannedNode.rename f) := by
    refine List.map_congr_left fun q hq => ?_
    rw [PlannedNode.rename, Node.rename, h q.node.id (List.mem_map_of_mem hq), PlannedNode.rename,
      Node.rename]
  rw [Plan.rename, hnodes, Plan.rename]

end Congruence

/-- **Identifiers do not matter.** A renaming that keeps the identifiers of a graph apart changes
neither whether there is a plan nor anything in it but the identifiers, and the programs of the
graph's canonical form not at all. -/
theorem generate_rename (hf : Set.InjOn f {id | id ∈ identifiers nodes edges entryId}) :
    ((∃ p, plan (nodes.map (Node.rename f)) (edges.map (Edge.rename f)) (entryId.map f) = .ok p) ↔
      ∃ p, plan nodes edges entryId = .ok p) ∧
    (∀ p, plan nodes edges entryId = .ok p →
      plan (nodes.map (Node.rename f)) (edges.map (Edge.rename f)) (entryId.map f) =
        .ok (p.rename f)) ∧
    ∀ pinned target project code,
      (let (nodes', edges') :=
        canonicalize (nodes.map (Node.rename f)) (edges.map (Edge.rename f)) pinned
      generate target nodes' edges' (entryId.map f) project = .ok code) ↔
      let (nodes', edges') := canonicalize nodes edges pinned
      generate target nodes' edges' entryId project = .ok code := by
  -- It is enough to know the result for renamings of all texts.
  obtain ⟨g, hg, heq⟩ := exists_injective_extension hf
  have hids : ∀ id ∈ nodeIds nodes, g id = f id := fun id hid => heq id (by simp [identifiers, hid])
  have hnodes : nodes.map (Node.rename f) = nodes.map (Node.rename g) :=
    (map_renameNode_congr hids).symm
  have hedges : edges.map (Edge.rename f) = edges.map (Edge.rename g) := by
    refine (map_renameEdge_congr fun e he => ⟨heq _ ?_, heq _ ?_⟩).symm
    · exact List.mem_append_left _ (List.mem_append_right _ (List.mem_flatMap.2 ⟨e, he, by simp⟩))
    · exact List.mem_append_left _ (List.mem_append_right _ (List.mem_flatMap.2 ⟨e, he, by simp⟩))
  have hentry : entryId.map f = entryId.map g := by
    cases entryId with
    | none => rfl
    | some id => rw [Option.map_some, Option.map_some, heq id (by simp [identifiers])]
  rw [hnodes, hedges, hentry]
  refine ⟨Plan.exists_plan_rename_iff hg, ?plans, ?programs⟩
  case plans =>
    intro p hp
    have hplanned : ∀ id ∈ p.ids, g id = f id := fun id hid =>
      hids id ((Plan.parts_of_plan hp).ids_perm.mem_iff.1 hid)
    rw [Plan.plan_rename hg hp, Plan.rename_congr hplanned]
  case programs =>
    intro pinned target project code
    rw [canonicalize_rename hg]
    exact generate_rename_of_injective hg target project code

/-- A node that chooses between two others, one of which leads back. -/
def choiceNodes : List Node :=
  [{ id := "a", label := "Choose", roles := [.agent] }, { id := "b", roles := [.agent] },
    { id := "c", roles := [.agent] }]

def choiceEdges : List Edge :=
  [{ source := "a", target := "b" }, { source := "a", target := "c" },
    { source := "b", target := "a" }]

/-- Two of the nodes exchange their identifiers. -/
theorem generate_rename_swap :
    ∃ f : String → String, f "a" = "b" ∧ f "b" = "a" ∧
      Set.InjOn f {id | id ∈ identifiers choiceNodes choiceEdges (some "c")} ∧
      (∃ p, plan choiceNodes choiceEdges (some "c") = .ok p ∧
        plan (choiceNodes.map (Node.rename f)) (choiceEdges.map (Edge.rename f)) (some (f "c")) =
          .ok (p.rename f)) ∧
      ∀ target project code,
        (let (nodes', edges') := canonicalize (choiceNodes.map (Node.rename f))
          (choiceEdges.map (Edge.rename f)) []
        generate target nodes' edges' (some (f "c")) project = .ok code) ↔
        let (nodes', edges') := canonicalize choiceNodes choiceEdges []
        generate target nodes' edges' (some "c") project = .ok code := by
  have hinj : Set.InjOn (Equiv.swap "a" "b") {id | id ∈ identifiers choiceNodes choiceEdges
      (some "c")} := (Equiv.swap "a" "b").injective.injOn
  have hplan : ∃ p, plan choiceNodes choiceEdges (some "c") = .ok p := ⟨_, rfl⟩
  obtain ⟨p, hp⟩ := hplan
  obtain ⟨-, hplans, hprograms⟩ := generate_rename hinj
  exact ⟨Equiv.swap "a" "b", Equiv.swap_apply_left .., Equiv.swap_apply_right .., hinj,
    ⟨p, hp, hplans p hp⟩, hprograms []⟩

end AgentFlow
