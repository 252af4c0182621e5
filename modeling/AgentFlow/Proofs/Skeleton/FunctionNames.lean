import AgentFlow.Proofs.Plan.ReservedWords
import AgentFlow.Proofs.Skeleton.PythonFacts
import AgentFlow.Proofs.Skeleton.Readings
import AgentFlow.Proofs.Skeleton.TypeScriptFacts

/-!
# Names of functions

Every function of a program has a name of its own, which no language reserves. A program defines
each of them once, in the section that is there for it, and its builder attaches each of them to its
own node, and refers to no other names (`Plan.hasSoundNames`).
-/

namespace AgentFlow

open Plan Skeleton Skeleton.Vocabulary Text

variable {nodes : List Node} {edges : List Edge} {entryId : Option String} {p : Plan}

namespace Skeleton

variable {d : Dialect}

/-! ## Names that no language reserves -/

def FunctionNames.all (functions : FunctionNames) : List String :=
  functions.units ++ functions.routers

/-- The names are chosen in one go, those of the nodes first. -/
theorem all_functionNames (d : Dialect) (p : Plan) :
    (d.functionNames p).all = freshAll "" [] (p.nodes.map (fun q => d.unitName q.key) ++
      p.branches.map (fun b => d.routerName b.source)) := List.take_append_drop ..

/-- Each name is chosen so that it is none of the names before it. -/
theorem nodup_functionNames (d : Dialect) (p : Plan) : (d.functionNames p).all.Nodup := by
  rw [all_functionNames]
  exact nodup_freshAll "" [] _

/-- A dialect that makes no reserved words of keys gives its functions none as names: a number at
the end of a name makes no reserved word of it. -/
theorem notMem_reservedWords_of_plan (h : plan nodes edges entryId = .ok p)
    (hunit : ∀ key ∈ assignKeys nodes, d.unitName key ∉ reservedWords)
    (hrouter : ∀ key ∈ assignKeys nodes, d.routerName key ∉ reservedWords)
    (hnames : ∀ name ∈ (d.functionNames p).all, IsName name) :
    ∀ name ∈ (d.functionNames p).all, name ∉ reservedWords := by
  intro name hname
  have hisName : IsName name := hnames name hname
  rw [all_functionNames] at hname
  obtain ⟨base, hbase, rfl | ⟨n, rfl⟩⟩ := exists_of_mem_freshAll hname
  · rcases List.mem_append.1 hbase with hbase | hbase
    · obtain ⟨q, hq, rfl⟩ := List.mem_map.1 hbase
      exact hunit _ (mem_assignKeys_of_mem_keys h (List.mem_map_of_mem hq))
    · obtain ⟨b, hb, rfl⟩ := List.mem_map.1 hbase
      exact hrouter _ (mem_assignKeys_of_mem_keys h (source_mem_keys h hb))
  · exact notMem_reservedWords_numbered hisName

end Skeleton

namespace Target

/-- They are identifiers in both languages. -/
theorem isName_of_mem_all (h : plan nodes edges entryId = .ok p) (t : Target) :
    ∀ name ∈ (t.dialect.functionNames p).all, IsName name := by
  have hlegible : Legible p (t.dialect.functionNames p) := t.legible h
  exact List.forall_mem_append.2 ⟨hlegible.units, hlegible.routers⟩

/-- What makes the camel case of the name a name. -/
theorem isSlug_routeFrom {key : String} (h : IsSlug key.toList) :
    IsSlug ("route_from_" ++ key).toList := by
  have hroute : IsSlug "route".toList := .of_forall (List.all_eq_true.1 rfl) (by decide)
  have hfrom : IsSlug "from".toList := .of_forall (List.all_eq_true.1 rfl) (by decide)
  rw [String.toList_append]
  exact hroute.append_gap (hfrom.append_gap h)

/-- The keys of a plan are no reserved words, and neither language makes one of them. -/
theorem notMem_reservedWords_of_mem_all (h : plan nodes edges entryId = .ok p) (t : Target) :
    ∀ name ∈ (t.dialect.functionNames p).all, name ∉ reservedWords := by
  refine notMem_reservedWords_of_plan h ?units ?routers (t.isName_of_mem_all h)
  case units =>
    intro key hkey
    cases t with
    | python => exact notMem_reservedWords_of_mem hkey
    | typescript =>
      exact camelCase_notMem_reservedWords (isName_of_mem_assignKeys hkey)
        (isSlug_of_mem_assignKeys hkey) (notMem_reservedWords_of_mem hkey)
  case routers =>
    intro key hkey
    cases t with
    | python => exact routeFrom_notMem_reservedWords key
    | typescript =>
      exact camelCase_notMem_reservedWords (isName_routeFrom (isName_of_mem_assignKeys hkey))
        (isSlug_routeFrom (isSlug_of_mem_assignKeys hkey)) (routeFrom_notMem_reservedWords key)

/-! ## What the sections of a program say -/

/-- The words of the programs of a target. -/
def vocabulary : Target → Vocabulary
  | .python => Python.vocabulary
  | .typescript => TypeScript.vocabulary

/-- The functions that a builder is made of itself. -/
def builders : Target → List String
  | .python => ["build_graph"]
  | .typescript => []

/-- What the sections of a program say: the header and the state say nothing, each function defines
its name, and the builder attaches the functions to their nodes. -/
def sectionFacts (t : Target) (p : Plan) : List (List Fact) :=
  let functions := t.dialect.functionNames p
  [[], []] ++ functions.units.map (fun name => [.defines name]) ++
    functions.routers.map (fun name => [.defines name]) ++
    [t.builders.map .defines ++ attachments p functions]

/-- Blank lines say nothing. -/
theorem saysLines_gap (t : Target) (names : List String) :
    t.vocabulary.SaysLines names t.dialect.gap [] := by
  cases t with
  | python => exact saysLines_blank.append saysLines_blank
  | typescript => exact saysLines_blank

/-- The builder names itself, where it is a function, and attaches the functions to their nodes. -/
theorem says_wiring (h : plan nodes edges entryId = .ok p) (t : Target) :
    t.vocabulary.Says (t.dialect.functionNames p).all .code
      (endLines (t.dialect.wiring p (t.dialect.functionNames p)))
      (t.builders.map .defines ++ attachments p (t.dialect.functionNames p)) .code := by
  have hlegible : Legible p (t.dialect.functionNames p) := t.legible h
  cases t with
  | python =>
    exact (Python.saysLines_wiring hlegible (List.subset_append_left ..)
      (List.subset_append_right ..)).ended
  | typescript =>
    exact (TypeScript.saysLines_wiring hlegible (List.subset_append_left ..)
      (List.subset_append_right ..)).ended

/-- What each section says, in the order of the sections. -/
theorem saysSections (h : plan nodes edges entryId = .ok p) (t : Target) (project : String) :
    t.vocabulary.SaysSections (t.dialect.functionNames p).all (t.dialect.sections p project)
      (t.sectionFacts p) := by
  have hlegible : Legible p (t.dialect.functionNames p) := t.legible h
  have hentry : ∀ c ∈ (entryName p).toList, isNameChar c = true := (isName_entryName h).chars
  -- the sections that say nothing
  have hstart : t.vocabulary.SaysSections (t.dialect.functionNames p).all
      [t.dialect.header p project, t.dialect.state] [[], []] := by
    cases t with
    | python =>
      exact .cons (Python.says_header (Python.isPlainDoc_of_isNameChar hentry) project)
        (.cons Python.saysLines_state.ended .nil)
    | typescript =>
      exact .cons (TypeScript.says_header (TypeScript.hasNoSlash_of_isNameChar hentry) project)
        (.cons TypeScript.saysLines_state.ended .nil)
  -- one section for each node
  have hunit : ∀ q ∈ p.nodes, ∀ name ∈ (t.dialect.functionNames p).units,
      t.vocabulary.Says (t.dialect.functionNames p).all .code
        (endLines (t.dialect.unit q name (branchAt p q.key))) [.defines name] .code := by
    intro q hq name hname
    have hkey : IsName q.key := isName_key h hq
    have hmem : name ∈ (t.dialect.functionNames p).all := List.mem_append_left _ hname
    cases t with
    | python => exact Python.says_unit hkey (hlegible.units name hname) hmem _
    | typescript => exact TypeScript.says_unit hkey (hlegible.units name hname) hmem _
  -- one section for each branch
  have hrouter : ∀ b ∈ p.branches, ∀ name ∈ (t.dialect.functionNames p).routers,
      t.vocabulary.Says (t.dialect.functionNames p).all .code (endLines (t.dialect.router b name))
        [.defines name] .code := by
    intro b hb name hname
    have hsource : IsName b.source := isName_source h hb
    have hmem : name ∈ (t.dialect.functionNames p).all := List.mem_append_right _ hname
    cases t with
    | python => exact Python.says_router hsource (hlegible.routers name hname) hmem
    | typescript =>
      exact (TypeScript.saysLines_router hsource (hlegible.routers name hname) hmem).ended
  exact ((hstart.append (.zip hlegible.length_units hunit)).append
    (.zip hlegible.length_routers hrouter)).append (.cons (t.says_wiring h) .nil)

theorem wiring_ne_nil (t : Target) (p : Plan) (functions : FunctionNames) :
    t.dialect.wiring p functions ≠ [] := by
  cases t with
  | python => exact List.cons_ne_nil _ _
  | typescript => simp [dialect, TypeScript.dialect, TypeScript.wiring]

/-- The text of a program says what its sections say. -/
theorem facts_program (h : plan nodes edges entryId = .ok p) (t : Target)
    (project : Option String) :
    t.vocabulary.facts (p.program t project) = (t.sectionFacts p).flatten := by
  -- the text ends its last line, as the lines of the sections do
  have htext : p.program t project =
      endLines (t.dialect.gap.intercalate (t.dialect.sections p (projectName project))) := by
    refine intercalate_eq_endLines ?_
    obtain ⟨before, hbefore⟩ := exists_sections_eq t.dialect p (projectName project)
    rw [hbefore]
    exact List.append_ne_nil_of_right_ne_nil before (t.wiring_ne_nil p _)
  have hsections := t.saysSections h (projectName project)
  rw [htext]
  exact (hsections.intercalate (t.saysLines_gap _)).facts_eq.1

/-! ## Definitions -/

/-- All definitions come before the attachments. -/
theorem flatten_sectionFacts (t : Target) (p : Plan) :
    (t.sectionFacts p).flatten = (t.dialect.functionNames p).all.map .defines ++
      (t.builders.map .defines ++ attachments p (t.dialect.functionNames p)) := by
  have hsingle : ∀ names : List String, (names.map fun name => [Fact.defines name]).flatten =
      names.map .defines := fun names => by rw [← List.flatMap_def, ← List.map_eq_flatMap]
  simp [sectionFacts, FunctionNames.all, hsingle]

/-- A program defines each of its functions once. -/
theorem count_defines (h : plan nodes edges entryId = .ok p) (t : Target) {name : String}
    (hname : name ∈ (t.dialect.functionNames p).all) :
    (t.sectionFacts p).flatten.count (.defines name) = 1 := by
  have hdefines : Function.Injective Fact.defines := fun _ _ => Fact.defines.inj
  have hbuilder : name ∉ t.builders := by
    have hreserved : t.builders ⊆ reservedWords := by cases t <;> decide
    exact fun hmem => t.notMem_reservedWords_of_mem_all h name hname (hreserved hmem)
  -- the definition in its own section is the only one there is
  have hbehind : Fact.defines name ∉
      t.builders.map .defines ++ attachments p (t.dialect.functionNames p) := by
    simp [attachments, hbuilder]
  rw [flatten_sectionFacts, List.count_append, List.count_eq_zero_of_not_mem hbehind,
    List.count_eq_one_of_mem ((nodup_functionNames t.dialect p).map hdefines)
      (List.mem_map_of_mem hname)]

end Target

/-! ## Names of a program -/

/-- The functions of a program have names of their own, and it uses them as it should. -/
structure Plan.HasSoundNames (p : Plan) (t : Target) (project : Option String) : Prop where
  length_units : (t.dialect.functionNames p).units.length = p.nodes.length
  length_routers : (t.dialect.functionNames p).routers.length = p.branches.length
  nodup : (t.dialect.functionNames p).all.Nodup
  isName : ∀ name ∈ (t.dialect.functionNames p).all, IsName name
  notMem_reservedWords : ∀ name ∈ (t.dialect.functionNames p).all, name ∉ reservedWords
  /-- Each function is defined by the section that is there for it, and the builder attaches it to
  its own node. -/
  sections : (t.dialect.sections p (projectName project)).map
    (fun lines => t.vocabulary.facts (endLines lines)) = t.sectionFacts p
  /-- The text as a whole says nothing else. -/
  program : t.vocabulary.facts (p.program t project) = (t.sectionFacts p).flatten
  count_defines : ∀ name ∈ (t.dialect.functionNames p).all,
    (t.vocabulary.facts (p.program t project)).count (.defines name) = 1
  /-- The builder has no names but those of the functions. -/
  builder : ∀ tok ∈ t.vocabulary.lexis.tokens
      (endLines (t.dialect.wiring p (t.dialect.functionNames p))),
    tok.isOf (t.vocabulary.words ++ (t.dialect.functionNames p).all) = true

/-- **Function names are sound**: in the programs of a plan they are different names that no
language reserves, each function is defined once, and the builder refers to the functions only,
each of them at its own node. -/
theorem Plan.hasSoundNames (h : plan nodes edges entryId = .ok p) (t : Target)
    (project : Option String) : p.HasSoundNames t project where
  length_units := Dialect.length_units t.dialect p
  length_routers := Dialect.length_routers t.dialect p
  nodup := nodup_functionNames t.dialect p
  isName := t.isName_of_mem_all h
  notMem_reservedWords := t.notMem_reservedWords_of_mem_all h
  sections := (t.saysSections h (projectName project)).facts_eq
  program := t.facts_program h project
  count_defines := fun name hname => by
    rw [t.facts_program h project]
    exact t.count_defines h hname
  builder := (t.says_wiring h).facts_eq.2

/-- Nodes whose labels are a reserved word, what is made of it, and what a function that chooses a
route is to be called. -/
def clashingNodes : List Node := [
  { id := "a", label := "Class", roles := [.agent] },
  { id := "b", label := "class node", roles := [.agent] },
  { id := "c", label := "Route from class node!", roles := [.agent] }]

def clashingEdges : List Edge := [
  { source := "a", target := "b", kind := .conditional, routeKey := some "left" },
  { source := "a", target := "c", kind := .conditional, routeKey := some "right" }]

/-- The key of the first node and the names of the router clash and are numbered. -/
theorem Plan.hasSoundNames_clashing : ∃ p, plan clashingNodes clashingEdges none = .ok p ∧
    Target.python.dialect.functionNames p =
      ⟨["class_node", "class_node_2", "route_from_class_node"], ["route_from_class_node2"]⟩ ∧
    Target.typescript.dialect.functionNames p =
      ⟨["classNode", "classNode2", "routeFromClassNode"], ["routeFromClassNode2"]⟩ ∧
    p.HasSoundNames .python none ∧ p.HasSoundNames .typescript none := by
  have hplan : ∃ p, plan clashingNodes clashingEdges none = .ok p ∧
      Target.python.dialect.functionNames p =
        ⟨["class_node", "class_node_2", "route_from_class_node"], ["route_from_class_node2"]⟩ ∧
      Target.typescript.dialect.functionNames p =
        ⟨["classNode", "classNode2", "routeFromClassNode"], ["routeFromClassNode2"]⟩ :=
    ⟨_, rfl, by decide +kernel⟩
  obtain ⟨p, h, hpython, htypescript⟩ := hplan
  exact ⟨p, h, hpython, htypescript, Plan.hasSoundNames h .python none,
    Plan.hasSoundNames h .typescript none⟩

end AgentFlow
