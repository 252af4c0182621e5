import AgentFlow.Schema.Graph
import Mathlib.Tactic.Common

/-!
# Where reading breaks off

Reading collects faults; at one place only it breaks off instead: the roles of a node are looked
into before anything is known of them, and a number or a truth value cannot be looked into.
`Outcome.Breaks` is carried through the ways to put readers together, and `breaks_graph_iff` says
which values break the reading of a graph.
-/

namespace AgentFlow

/-- Numbers and truth values have no parts. -/
def Json.isScalar : Json → Bool
  | .bool _ | .int _ | .float _ => true
  | _ => false

namespace Schema

variable {α β : Type}

/-! ## Putting outcomes together -/

namespace Outcome

def Breaks (x : Outcome α) : Prop := ∃ kind, x = .unlistable kind

@[simp] theorem not_breaks_ok (a : α) : ¬ (Outcome.ok a).Breaks := fun h => nomatch h

@[simp] theorem not_breaks_faults (first : Fault) (more : List Fault) :
    ¬ (Outcome.faults (α := α) first more).Breaks := fun h => nomatch h

@[simp] theorem not_breaks_fault (p : Problem) : ¬ (fault (α := α) p).Breaks := fun h => nomatch h

@[simp] theorem breaks_unlistable (kind : String) : (Outcome.unlistable (α := α) kind).Breaks :=
  ⟨kind, rfl⟩

@[simp] theorem breaks_map_iff {f : α → β} {x : Outcome α} : (x.map f).Breaks ↔ x.Breaks := by
  cases x <;> simp [map]

@[simp] theorem breaks_fmap_iff {f : α → β} {x : Outcome α} : (f <$> x).Breaks ↔ x.Breaks :=
  breaks_map_iff

@[simp] theorem breaks_under_iff {step : Step} {x : Outcome α} :
    (x.under step).Breaks ↔ x.Breaks := by
  cases x <;> simp [under]

/-- Both readings are made, so it does not matter which breaks off. -/
theorem breaks_seq_iff {f : Outcome (α → β)} {x : Outcome α} :
    (f.seq x).Breaks ↔ f.Breaks ∨ x.Breaks := by
  cases f <;> cases x <;> simp [seq]

/-- Two readings break off if one of them does. -/
@[simp] theorem breaks_ap_iff {f : Outcome (α → β)} {x : Outcome α} :
    (f <*> x).Breaks ↔ f.Breaks ∨ x.Breaks := breaks_seq_iff

end Outcome

open Outcome

/-! ## Readers -/

/-- Nothing breaks the reader. -/
def Reader.IsSteady (read : Reader α) : Prop := ∀ v, ¬ (read v).Breaks

/-- Reading a text breaks off nowhere. -/
theorem isSteady_text : Reader.IsSteady text := by
  intro v
  cases v <;> simp [text]

/-- Nor does reading a choice, -/
theorem isSteady_choice (choices : List (String × α)) : Reader.IsSteady (choice choices) := by
  intro v
  unfold choice
  split
  · split <;> simp
  · simp

/-- nor a number, whatever is in its place. -/
theorem isSteady_number (origin : Origin) : Reader.IsSteady (number origin) := by
  intro v
  -- Each kind of value is read as a number or has a fault of its own.
  rw [number.eq_def]
  split
  case h_2 i => dsimp only; split <;> simp
  case h_4 s => split <;> simp
  all_goals simp

theorem isSteady_anyObject : Reader.IsSteady anyObject := by
  intro v
  cases v <;> simp [anyObject]

/-- A value that may be null breaks off where the value does. -/
theorem Reader.IsSteady.nullable {read : Reader α} (h : read.IsSteady) :
    Reader.IsSteady (nullable read) := by
  intro v
  cases v
  case null => exact not_breaks_ok none
  all_goals exact fun hbreaks => h _ (breaks_map_iff.1 hbreaks)

/-- Reading items breaks off at one of them. -/
theorem breaks_readItems_iff {read : Reader α} {i : Nat} {items : List Json} :
    (readItems read i items).Breaks ↔ ∃ v ∈ items, (read v).Breaks := by
  induction items generalizing i with
  | nil => simp [readItems]
  | cons v rest ih => simp [readItems, ih]

/-- Reading fields breaks off at one of them. -/
theorem breaks_readFields_iff {read : Reader α} {fields : List (String × Json)} :
    (readFields read fields).Breaks ↔ ∃ field ∈ fields, (read field.2).Breaks := by
  induction fields with
  | nil => simp [readFields]
  | cons field rest ih => simp [readFields, ih]

/-- Reading a list breaks off at one of its items. -/
theorem breaks_listOf_iff {read : Reader α} {v : Json} :
    (listOf read v).Breaks ↔ ∃ items, v = .arr items ∧ ∃ item ∈ items, (read item).Breaks := by
  cases v <;> simp [listOf, breaks_readItems_iff]

/-- A list of what is read steadily is read steadily. -/
theorem Reader.IsSteady.listOf {read : Reader α} (h : read.IsSteady) :
    Reader.IsSteady (listOf read) := by
  intro v hbreaks
  obtain ⟨_, -, item, -, hitem⟩ := breaks_listOf_iff.1 hbreaks
  exact h item hitem

theorem Reader.IsSteady.objectOf {read : Reader α} (h : read.IsSteady) :
    Reader.IsSteady (objectOf read) := by
  intro v
  cases v
  case obj fields =>
    intro hbreaks
    obtain ⟨field, -, hfield⟩ := breaks_readFields_iff.1 (breaks_map_iff.1 hbreaks)
    exact h field.2 hfield
  all_goals exact not_breaks_fault _

/-! ## Fields of records -/

/-- An optional field breaks off if it is there and its value does. -/
theorem breaks_optional_iff {fields : List (String × Json)} {name : String} {read : Reader α}
    {absent : α} : (optional fields name read absent).Breaks ↔
      ∃ v, Json.field? fields name = some v ∧ (read v).Breaks := by
  rw [optional]
  cases Json.field? fields name <;> simp

/-- A required field that is missing is a fault, which breaks nothing off. -/
theorem breaks_required_iff {fields : List (String × Json)} {name : String} {read : Reader α} :
    (required fields name read).Breaks ↔
      ∃ v, Json.field? fields name = some v ∧ (read v).Breaks := by
  rw [required]
  cases Json.field? fields name <;> simp

theorem not_breaks_optional {read : Reader α} (h : read.IsSteady) (fields : List (String × Json))
    (name : String) (absent : α) : ¬ (optional fields name read absent).Breaks := by
  rw [breaks_optional_iff]
  rintro ⟨v, -, hv⟩
  exact h v hv

theorem not_breaks_required {read : Reader α} (h : read.IsSteady) (fields : List (String × Json))
    (name : String) : ¬ (required fields name read).Breaks := by
  rw [breaks_required_iff]
  rintro ⟨v, -, hv⟩
  exact h v hv

/-- The fields of a record as they are looked up. -/
def recordFields? : Json → Option (List (String × Json))
  | .obj fields | .torn (.obj fields) => some (Json.settle fields)
  | _ => none

/-- The value of a record's field. -/
def recordField? (v : Json) (name : String) : Option Json :=
  (recordFields? v).bind fun fields => Json.field? fields name

/-- A record breaks off if it is one and its fields do. -/
theorem breaks_record_iff {name : String} {read : List (String × Json) → Outcome α} {v : Json} :
    (record name read v).Breaks ↔
      ∃ fields, recordFields? v = some fields ∧ (read fields).Breaks := by
  rw [record.eq_def]
  split <;> simp [recordFields?]

/-! ## Graphs -/

/-- Looking into roles breaks off at a number or a truth value. -/
theorem breaks_roles_iff {v : Json} : (roles v).Breaks ↔ v.isScalar = true := by
  cases v
  case null => simp [roles, Json.isScalar]
  case bool | int | float => simp [roles, parts, Json.merged, Json.isScalar]
  case str | arr | obj | torn =>
    simp only [roles, parts, Json.merged, Json.isScalar]
    split <;> simp

/-- Of the fields of a node, only the roles break off. -/
theorem breaks_node_iff {origin : Origin} {v : Json} :
    (node origin v).Breaks ↔ ∃ r, recordField? v "roles" = some r ∧ r.isScalar = true := by
  have hcoordinate : Reader.IsSteady (coordinate origin) :=
    fun v hbreaks => isSteady_number origin v (breaks_map_iff.1 hbreaks)
  rw [node, breaks_record_iff, recordField?]
  simp only [breaks_ap_iff, breaks_fmap_iff, breaks_map_iff,
    not_breaks_required isSteady_text, not_breaks_optional isSteady_text,
    not_breaks_optional isSteady_text.listOf, not_breaks_optional hcoordinate.objectOf.nullable,
    not_breaks_optional isSteady_anyObject.nullable, breaks_optional_iff, breaks_roles_iff,
    false_or, or_false]
  cases recordFields? v <;> simp

/-- No field of an edge breaks off. -/
theorem isSteady_edge : Reader.IsSteady edge := by
  intro v
  have hkind : Reader.IsSteady edgeKind := isSteady_choice _
  rw [edge, breaks_record_iff]
  simp only [breaks_ap_iff, breaks_fmap_iff, not_breaks_required isSteady_text,
    not_breaks_optional isSteady_text.nullable, not_breaks_optional hkind, or_false, and_false,
    exists_false, not_false_eq_true]

/-- The roles of some node are a number or a truth value. -/
def HasScalarRoles (v : Json) : Prop :=
  ∃ nodes n r, recordField? v "nodes" = some (.arr nodes) ∧ n ∈ nodes ∧
    recordField? n "roles" = some r ∧ r.isScalar = true

/-- Reading a graph breaks off at the roles of a node, and nowhere else. -/
theorem breaks_graph_iff (origin : Origin) {v : Json} :
    (graph origin v).Breaks ↔ HasScalarRoles v := by
  rw [graph, breaks_record_iff, HasScalarRoles, recordField?]
  simp only [breaks_ap_iff, breaks_fmap_iff, not_breaks_optional isSteady_text,
    not_breaks_optional isSteady_edge.listOf, breaks_optional_iff, breaks_listOf_iff,
    breaks_node_iff, false_or, or_false]
  -- Both sides look up the same field of the same record.
  constructor
  · rintro ⟨fields, hfields, _, hnodes, nodes, rfl, n, hn, r, hr⟩
    exact ⟨nodes, n, r, by rw [hfields]; exact hnodes, hn, hr⟩
  · rintro ⟨nodes, n, r, hnodes, hn, hr⟩
    obtain ⟨fields, hfields, hnodes⟩ := Option.bind_eq_some_iff.1 hnodes
    exact ⟨fields, hfields, _, hnodes, nodes, rfl, n, hn, r, hr⟩

end Schema

end AgentFlow
