import AgentFlow.Proofs.Compiled.View
import AgentFlow.Proofs.Editor.Runs
import AgentFlow.Proofs.Http.Status
import AgentFlow.Proofs.Json.Merging
import AgentFlow.Proofs.Lists
import AgentFlow.Proofs.RoleSignals

/-!
# Dumps can be read back

What is read is in a normal form: the tools, the names in a position and those in the metadata are
distinct, and the roles are in their order. A dump of what is in normal form is read as just that
(`Schema.graph_toJson`), so a graph that is read, and whose dump can be written, comes through its
own dump unchanged (`Graph.roundTrips`).
-/

namespace AgentFlow

/-! ## What is asked of nodes -/

/-- The coordinate is a finite double. -/
def Coordinate.IsFinite : Coordinate → Prop
  | .double x => x.isFinite = true
  | .beyond _ => False

namespace Node

def HasFinitePlace (n : Node) : Prop := ∀ field ∈ n.position.getD [], field.2.IsFinite

/-- The node is in normal form. -/
structure IsNormal (n : Node) : Prop where
  tools : n.tools.Nodup
  roles : Role.canonical n.roles = n.roles
  position : ((n.position.getD []).map Prod.fst).Nodup
  metadata : Json.settle (Json.mergedFields (n.metadata.getD [])) = n.metadata.getD []

/-- The node can be written: its place and the numbers in its metadata are finite, and the metadata
is not nested too deeply. -/
structure IsWritable (n : Node) : Prop where
  place : n.HasFinitePlace
  metadata : ∀ field ∈ n.metadata.getD [], field.2.hasFiniteNumbers = true
  depth : n.isDumpable = true

end Node

/-- The graph comes through its own dump, and all numbers in the dump are finite. -/
def Graph.RoundTrips (g : Graph) : Prop :=
  ∃ w, g.dump = .ok w ∧ w.hasFiniteNumbers = true ∧ ∀ origin, Schema.graph origin w = .ok g

namespace Schema

variable {α β : Type} {origin : Origin}

/-! ## Reading what was written -/

/-- Items that are read back one by one are read back together. -/
theorem readItems_map {read : Reader α} {write : α → Json} {as : List α}
    (h : ∀ a ∈ as, read (write a) = .ok a) (i : Nat) :
    readItems read i (as.map write) = .ok as := by
  induction as generalizing i with
  | nil => rfl
  | cons a rest ih =>
    obtain ⟨ha, hrest⟩ := List.forall_mem_cons.1 h
    rw [List.map_cons, readItems, ha, ih hrest]
    rfl

/-- So are fields. -/
theorem readFields_map {read : Reader α} {write : α → Json} {fields : List (String × α)}
    (h : ∀ field ∈ fields, read (write field.2) = .ok field.2) :
    readFields read (fields.map (Prod.map id write)) = .ok fields := by
  induction fields with
  | nil => rfl
  | cons field rest ih =>
    obtain ⟨hfield, hrest⟩ := List.forall_mem_cons.1 h
    rw [List.map_cons, Prod.map, readFields, hfield, ih hrest]
    rfl

/-- A text that may be missing is read back. -/
theorem nullable_text_ofOption (s : Option String) : nullable text (.ofOption s) = .ok s := by
  cases s <;> rfl

theorem edgeKind_text (kind : EdgeKind) : edgeKind (.str kind.text) = .ok kind := by
  cases kind <;> rfl

/-- A finite coordinate is read back. -/
theorem coordinate_toJson {c : Coordinate} (h : c.IsFinite) :
    coordinate origin c.toJson = .ok c := by
  cases c with
  | double x => rfl
  | beyond i => cases h

/-- A position is read back, if its names are distinct and its coordinates finite. -/
theorem position_toJson {place : Option Position}
    (hfinite : ∀ field ∈ place.getD [], field.2.IsFinite)
    (hnames : ((place.getD []).map Prod.fst).Nodup) :
    nullable (objectOf (coordinate origin)) (positionJson place) = .ok place := by
  cases place with
  | none => rfl
  | some fields =>
    have hfields : readFields (coordinate origin) (fields.map (Prod.map id Coordinate.toJson)) =
        .ok fields := readFields_map fun field hfield => coordinate_toJson (hfinite field hfield)
    show ((readFields (coordinate origin) (fields.map (Prod.map id Coordinate.toJson))).map
      Json.settle).map some = _
    have hsettle : Json.settle fields = fields := Json.settle_of_nodup hnames
    rw [hfields, Outcome.map, hsettle]
    rfl

/-- Metadata is read back, if it is settled. -/
theorem metadata_toJson {metadata : Option (List (String × Json))}
    (h : Json.settle (Json.mergedFields (metadata.getD [])) = metadata.getD []) :
    nullable anyObject (metadataJson metadata) = .ok metadata := by
  cases metadata with
  | none => rfl
  | some fields => exact congrArg (fun fields => Outcome.ok (some fields)) h

/-- A required field is read where it is. -/
theorem required_eq_ok (read : Reader α) {fields : List (String × Json)} {name : String} {v : Json}
    {a : α} (h : Json.field? fields name = some v) (hv : read v = .ok a) :
    required fields name read = .ok a := by
  rw [required, h]
  show (read v).under _ = _
  rw [hv]
  rfl

/-- So is an optional one. -/
theorem optional_eq_ok (read : Reader α) {fields : List (String × Json)} {name : String} {v : Json}
    {a absent : α} (h : Json.field? fields name = some v) (hv : read v = .ok a) :
    optional fields name read absent = .ok a := by
  rw [optional, h]
  show (read v).under _ = _
  rw [hv]
  rfl

/-- A record with distinct names is read by its own fields. -/
theorem record_of_nodup {name : String} {read : List (String × Json) → Outcome α}
    {fields : List (String × Json)} (h : (fields.map Prod.fst).Nodup) :
    record name read (.obj fields) = read fields := by
  rw [record, Json.settle_of_nodup h]

/-- **A node in normal form is read back.** -/
theorem node_toJson {n : Node} (h : n.IsNormal) (hplace : n.HasFinitePlace) :
    node origin n.toJson = .ok n := by
  have htools : listOf text (.texts n.tools) = .ok n.tools := readItems_text 0 n.tools
  have hroles : roles (.texts (n.roles.map Role.text)) = .ok n.roles := by
    rw [roles_texts, h.roles]
  have hnames : List.Nodup
      ["id", "label", "description", "tools", "roles", "position", "metadata"] := by decide
  refine Eq.trans (record_of_nodup hnames) ?_
  rw [required_eq_ok text (v := .str n.id) rfl rfl,
    optional_eq_ok text (v := .str n.label) rfl rfl,
    optional_eq_ok text (v := .str n.description) rfl rfl,
    optional_eq_ok (listOf text) rfl htools, optional_eq_ok roles rfl hroles,
    optional_eq_ok (nullable (objectOf (coordinate origin))) rfl
      (position_toJson hplace h.position),
    optional_eq_ok (nullable anyObject) rfl (metadata_toJson h.metadata)]
  -- Of a list of tools, each is kept once.
  show Outcome.ok { n with tools := firstSeen n.tools } = _
  rw [firstSeen_of_nodup h.tools]

/-- Every edge is read back. -/
theorem edge_toJson (e : Edge) : edge e.toJson = .ok e := by
  have hnames : List.Nodup ["id", "source", "target", "kind", "route_key"] := by decide
  refine Eq.trans (record_of_nodup hnames) ?_
  rw [optional_eq_ok (nullable text) rfl (nullable_text_ofOption e.id),
    required_eq_ok text (v := .str e.source) rfl rfl,
    required_eq_ok text (v := .str e.target) rfl rfl,
    optional_eq_ok edgeKind rfl (edgeKind_text e.kind),
    optional_eq_ok (nullable text) rfl (nullable_text_ofOption e.routeKey)]
  rfl

/-- A graph is read from its own JSON. -/
theorem graph_toJson {g : Graph} (h : ∀ n ∈ g.nodes, n.IsNormal ∧ n.HasFinitePlace) :
    graph origin g.toJson = .ok g := by
  have hnames : List.Nodup ["name", "nodes", "edges"] := by decide
  have hnodes : listOf (node origin) (.arr (g.nodes.map Node.toJson)) = .ok g.nodes :=
    readItems_map (fun n hn => node_toJson (h n hn).1 (h n hn).2) 0
  have hedges : listOf edge (.arr (g.edges.map Edge.toJson)) = .ok g.edges :=
    readItems_map (fun e _ => edge_toJson e) 0
  refine Eq.trans (record_of_nodup hnames) ?_
  rw [optional_eq_ok text (v := .str g.name) rfl rfl,
    optional_eq_ok (listOf (node origin)) rfl hnodes, optional_eq_ok (listOf edge) rfl hedges]
  rfl

/-! ## What was read -/

/-- Where a value was read makes no difference to it. -/
theorem under_eq_ok_iff {x : Outcome α} {step : Step} {a : α} :
    x.under step = .ok a ↔ x = .ok a := by
  cases x <;> simp [Outcome.under]

/-- An optional field that is read is missing or there. -/
theorem optional_eq_ok_iff {read : Reader α} {fields : List (String × Json)} {name : String}
    {a absent : α} : optional fields name read absent = .ok a ↔
      (Json.field? fields name = none ∧ absent = a) ∨
        ∃ v, Json.field? fields name = some v ∧ read v = .ok a := by
  rw [optional]
  cases Json.field? fields name <;> simp [under_eq_ok_iff]

/-- A record that is read has fields. -/
theorem record_eq_ok_iff {name : String} {read : List (String × Json) → Outcome α} {v : Json}
    {a : α} : record name read v = .ok a ↔ ∃ fields, recordFields? v = some fields ∧
      read fields = .ok a := by
  rw [record.eq_def]
  split <;> simp [recordFields?, Outcome.fault]

/-- Every item that is read stands for a value in the array. -/
theorem exists_of_readItems_eq_ok {read : Reader α} {i : Nat} {items : List Json} {as : List α}
    (h : readItems read i items = .ok as) : ∀ a ∈ as, ∃ v ∈ items, read v = .ok a := by
  induction items generalizing i as with
  | nil =>
    cases h
    simp
  | cons v rest ih =>
    obtain ⟨_, more, hfirst, hmore, rfl⟩ := Outcome.seq_eq_ok_iff.1 h
    obtain ⟨a, hv, rfl⟩ := Outcome.map_eq_ok_iff.1 hfirst
    intro b hb
    rcases List.mem_cons.1 hb with rfl | hb
    · exact ⟨v, List.mem_cons_self, under_eq_ok_iff.1 hv⟩
    · obtain ⟨w, hw, hread⟩ := ih hmore b hb
      exact ⟨w, List.mem_cons_of_mem _ hw, hread⟩

/-- What is read keeps the names of its fields. -/
theorem map_fst_of_readFields_eq_ok {read : Reader α} {given : List (String × Json)}
    {fields : List (String × α)} (h : readFields read given = .ok fields) :
    fields.map Prod.fst = given.map Prod.fst := by
  induction given generalizing fields with
  | nil =>
    cases h
    rfl
  | cons field rest ih =>
    obtain ⟨_, more, hfirst, hmore, rfl⟩ := Outcome.seq_eq_ok_iff.1 h
    obtain ⟨_, hfield, rfl⟩ := Outcome.map_eq_ok_iff.1 hfirst
    obtain ⟨a, -, rfl⟩ := Outcome.map_eq_ok_iff.1 hfield
    rw [List.map_cons, List.map_cons, ih hmore]

/-- What a record's fields are read into, apart from the texts of a node. -/
theorem parts_of_node_eq_ok {v : Json} {n : Node} (h : node origin v = .ok n) :
    ∃ fields, recordFields? v = some fields ∧
      optional fields "roles" roles [] = .ok n.roles ∧
      optional fields "position" (nullable (objectOf (coordinate origin))) none =
        .ok n.position ∧
      optional fields "metadata" (nullable anyObject) none = .ok n.metadata := by
  obtain ⟨fields, hfields, hread⟩ := record_eq_ok_iff.1 h
  -- Seven fields are read one after the other, so there are seven steps to take apart.
  obtain ⟨_, metadata, h6, hmetadata, rfl⟩ := Outcome.seq_eq_ok_iff.1 hread
  obtain ⟨_, position, h5, hposition, rfl⟩ := Outcome.seq_eq_ok_iff.1 h6
  obtain ⟨_, rs, h4, hroles, rfl⟩ := Outcome.seq_eq_ok_iff.1 h5
  obtain ⟨_, tools, h3, -, rfl⟩ := Outcome.seq_eq_ok_iff.1 h4
  obtain ⟨_, description, h2, -, rfl⟩ := Outcome.seq_eq_ok_iff.1 h3
  obtain ⟨_, label, h1, -, rfl⟩ := Outcome.seq_eq_ok_iff.1 h2
  obtain ⟨id, -, rfl⟩ := Outcome.map_eq_ok_iff.1 h1
  exact ⟨fields, hfields, hroles, hposition, hmetadata⟩

/-- Roles are read into their order. -/
theorem canonical_of_roles_eq_ok {v : Json} {rs : List Role} (h : roles v = .ok rs) :
    Role.canonical rs = rs := by
  unfold roles at h
  split at h
  · cases h
    rfl
  · split at h
    · cases h
    · split at h
      · cases h
        exact Role.canonical_canonical _
      · cases h

/-- A position is read with distinct names. -/
theorem position_eq_ok {v : Json} {place : Option Position}
    (h : nullable (objectOf (coordinate origin)) v = .ok place) :
    ((place.getD []).map Prod.fst).Nodup := by
  cases v with
  | null =>
    cases h
    exact .nil
  | obj fields =>
    obtain ⟨settled, hsettled, rfl⟩ := Outcome.map_eq_ok_iff.1 h
    obtain ⟨given, -, rfl⟩ := Outcome.map_eq_ok_iff.1 hsettled
    exact Json.nodup_settle given
  | _ => cases h

/-- Metadata is nothing, or a settled object. -/
theorem metadata_eq_ok {v : Json} {metadata : Option (List (String × Json))}
    (h : nullable anyObject v = .ok metadata) : metadata = none ∨
      ∃ fields, v = .obj fields ∧ metadata = some (Json.settle (Json.mergedFields fields)) := by
  cases v with
  | null =>
    cases h
    exact .inl rfl
  | obj fields =>
    cases h
    exact .inr ⟨fields, rfl, rfl⟩
  | _ => cases h

/-- **What is read is in normal form.** -/
theorem isNormal_of_node_eq_ok {v : Json} {n : Node} (h : node origin v = .ok n) :
    n.IsNormal := by
  obtain ⟨fields, -, hroles, hposition, hmetadata⟩ := parts_of_node_eq_ok h
  constructor
  case tools => exact nodup_tools_of_node_eq_ok h
  -- A field that is missing leaves the default, which is in normal form.
  case roles =>
    obtain ⟨-, habsent⟩ | ⟨v, -, hv⟩ := optional_eq_ok_iff.1 hroles
    · rw [← habsent]
      rfl
    · exact canonical_of_roles_eq_ok hv
  case position =>
    obtain ⟨-, habsent⟩ | ⟨v, -, hv⟩ := optional_eq_ok_iff.1 hposition
    · rw [← habsent]
      exact .nil
    · exact position_eq_ok hv
  case metadata =>
    obtain ⟨-, habsent⟩ | ⟨v, -, hv⟩ := optional_eq_ok_iff.1 hmetadata
    · rw [← habsent]
      rfl
    obtain hnone | ⟨given, -, hgiven⟩ := metadata_eq_ok hv
    · rw [hnone]
      rfl
    · rw [hgiven]
      exact Json.settle_mergedFields_idem given

/-! ### Finite numbers -/

/-- The numbers in the fields of a record are among those of the value. -/
theorem hasFiniteNumbers_of_recordFields? {v : Json} {fields : List (String × Json)}
    (hv : v.hasFiniteNumbers = true) (h : recordFields? v = some fields) :
    fields.all (·.2.hasFiniteNumbers) = true := by
  unfold recordFields? at h
  split at h
  · cases h
    rw [Json.hasFiniteNumbers_obj] at hv
    exact Json.all_settle_of_all hv
  · cases h
    rw [Json.hasFiniteNumbers_torn, Json.hasFiniteNumbers_obj] at hv
    exact Json.all_settle_of_all hv
  · cases h

/-- So are those in a single field. -/
theorem hasFiniteNumbers_of_field? {v : Json} {fields : List (String × Json)} {name : String}
    (hfields : fields.all (·.2.hasFiniteNumbers) = true) (h : Json.field? fields name = some v) :
    v.hasFiniteNumbers = true :=
  List.all_eq_true.1 hfields _ (mem_of_lookup h)

/-- The numbers in the metadata of a node are finite if those in the value are. -/
theorem hasFiniteNumbers_of_node_eq_ok {v : Json} {n : Node} (hv : v.hasFiniteNumbers = true)
    (h : node origin v = .ok n) :
    ∀ field ∈ n.metadata.getD [], field.2.hasFiniteNumbers = true := by
  obtain ⟨fields, hfields, -, -, hmetadata⟩ := parts_of_node_eq_ok h
  have hall := hasFiniteNumbers_of_recordFields? hv hfields
  obtain ⟨-, habsent⟩ | ⟨m, hm, hread⟩ := optional_eq_ok_iff.1 hmetadata
  · rw [← habsent]
    simp
  obtain hnone | ⟨given, rfl, hgiven⟩ := metadata_eq_ok hread
  · rw [hnone]
    simp
  · have hgiven' := hasFiniteNumbers_of_field? hall hm
    rw [Json.hasFiniteNumbers_obj] at hgiven'
    rw [hgiven]
    exact List.all_eq_true.1 (Json.all_settle_of_all (Json.all_mergedFields given hgiven'))

/-- The nodes of a graph are read from values in it. -/
theorem exists_of_graph_eq_ok {v : Json} {g : Graph} (h : graph origin v = .ok g) :
    ∀ n ∈ g.nodes, ∃ item, node origin item = .ok n ∧
      (v.hasFiniteNumbers = true → item.hasFiniteNumbers = true) := by
  obtain ⟨fields, hfields, hread⟩ := record_eq_ok_iff.1 h
  obtain ⟨_, edges, h2, -, rfl⟩ := Outcome.seq_eq_ok_iff.1 hread
  obtain ⟨_, nodes, h1, hnodes, rfl⟩ := Outcome.seq_eq_ok_iff.1 h2
  obtain ⟨name, -, rfl⟩ := Outcome.map_eq_ok_iff.1 h1
  intro n hn
  obtain ⟨-, habsent⟩ | ⟨w, hw, hlist⟩ := optional_eq_ok_iff.1 hnodes
  · -- A graph without a list of nodes has none.
    cases habsent
    cases hn
  cases w with
  | arr items =>
    obtain ⟨item, hitem, hnode⟩ := exists_of_readItems_eq_ok hlist n hn
    refine ⟨item, hnode, fun hv => ?_⟩
    have hitems := hasFiniteNumbers_of_field? (hasFiniteNumbers_of_recordFields? hv hfields) hw
    rw [Json.hasFiniteNumbers_arr] at hitems
    exact List.all_eq_true.1 hitems item hitem
  | _ => cases hlist

end Schema

/-! ## Graphs -/

theorem Coordinate.hasFiniteNumbers_toJson {c : Coordinate} (h : c.IsFinite) :
    c.toJson.hasFiniteNumbers = true := by
  cases c with
  | double x => exact h
  | beyond i => cases h

/-- All numbers that are written of a node are finite. -/
theorem Node.IsWritable.hasFiniteNumbers_toJson {n : Node} (h : n.IsWritable) :
    n.toJson.hasFiniteNumbers = true := by
  have hplace : (positionJson n.position).hasFiniteNumbers = true := by
    have hfinite : ∀ field ∈ n.position.getD [], field.2.IsFinite := h.place
    cases hposition : n.position with
    | none => rfl
    | some fields =>
      rw [hposition] at hfinite
      rw [positionJson, Json.hasFiniteNumbers_obj, List.all_map, List.all_eq_true]
      exact fun field hfield => Coordinate.hasFiniteNumbers_toJson (hfinite field hfield)
  have hmetadata : (metadataJson n.metadata).hasFiniteNumbers = true := by
    have hfinite := h.metadata
    cases hm : n.metadata with
    | none => rfl
    | some fields =>
      rw [hm] at hfinite
      rw [metadataJson, Json.hasFiniteNumbers_obj, List.all_eq_true]
      exact hfinite
  simp [Node.toJson, hplace, hmetadata]

theorem Edge.hasFiniteNumbers_toJson (e : Edge) : e.toJson.hasFiniteNumbers = true := by
  simp [Edge.toJson]

/-- A graph of nodes in normal form that can be written comes through its dump. -/
theorem Graph.roundTrips {g : Graph} (h : ∀ n ∈ g.nodes, n.IsNormal ∧ n.IsWritable) :
    g.RoundTrips := by
  have hdump : g.dump = .ok g.toJson :=
    if_pos (List.all_eq_true.2 fun n hn => (h n hn).2.depth)
  have hfinite : g.toJson.hasFiniteNumbers = true := by
    simp only [Graph.toJson, Json.hasFiniteNumbers_obj, Json.hasFiniteNumbers_arr, List.all_cons,
      List.all_map, Json.hasFiniteNumbers_str, List.all_nil, Bool.and_eq_true, List.all_eq_true,
      Function.comp_apply]
    exact ⟨trivial, fun n hn => (h n hn).2.hasFiniteNumbers_toJson,
      fun e _ => e.hasFiniteNumbers_toJson, trivial⟩
  have hread : ∀ n ∈ g.nodes, n.IsNormal ∧ n.HasFinitePlace := fun n hn =>
    ⟨(h n hn).1, (h n hn).2.place⟩
  exact ⟨g.toJson, hdump, hfinite, fun origin => Schema.graph_toJson hread⟩

end AgentFlow
