import AgentFlow.Plan.Keys
import AgentFlow.Proofs.Graph.Basic
import AgentFlow.Proofs.Lists
import AgentFlow.Proofs.Text.Fresh
import AgentFlow.Proofs.Text.Names

/-!
# Keys of nodes

Every node has a key (`length_assignKeys`), no two have the same one (`nodup_assignKeys`), every key
is a name (`isName_of_mem_assignKeys`), and the key table has an entry for each identifier of the
graph and for nothing else.
-/

namespace AgentFlow.Plan

open Text

/-! ## Assigned keys -/

/-- Every label gets a key. -/
@[simp] theorem length_keysFrom (place : Nat) (used labels : List String) :
    (keysFrom place used labels).length = labels.length := by
  induction labels generalizing place used with
  | nil => rfl
  | cons label rest ih => simp [keysFrom, ih]

/-- No key is handed out that was used before. -/
theorem notMem_of_mem_keysFrom {place : Nat} {used labels : List String} {key : String}
    (h : key ∈ keysFrom place used labels) : key ∉ used := by
  induction labels generalizing place used with
  | nil => simp [keysFrom] at h
  | cons label rest ih =>
    rcases List.mem_cons.1 h with rfl | h
    · exact fresh_notMem "_" _ used
    · exact fun hused => ih h (List.mem_cons_of_mem _ hused)

/-- No key is handed out twice. -/
theorem nodup_keysFrom (place : Nat) (used labels : List String) :
    (keysFrom place used labels).Nodup := by
  induction labels generalizing place used with
  | nil => exact List.nodup_nil
  | cons label rest ih =>
    -- A key counts as used for all labels behind its own.
    refine List.nodup_cons.2 ⟨fun h => ?_, ih _ _⟩
    exact notMem_of_mem_keysFrom h List.mem_cons_self

variable {nodes : List Node}

@[simp] theorem length_assignKeys : (assignKeys nodes).length = nodes.length := by
  simp [assignKeys]

theorem nodup_assignKeys (nodes : List Node) : (assignKeys nodes).Nodup := nodup_keysFrom 0 [] _

/-! ## Keys are names -/

theorem isName_node_ : IsName "node_" := ⟨⟨'n', rfl, rfl⟩, List.all_eq_true.1 rfl⟩

/-- A slug that does not start with a digit is empty or a name. -/
theorem isName_slug {label : String} (hne : slug label ≠ "")
    (hdigit : startsWithDigit (slug label) = false) : IsName (slug label) := by
  constructor
  case head =>
    cases hcs : (slug label).toList with
    | nil => exact absurd (String.toList_injective hcs) hne
    | cons c rest =>
      have hhead : (slug label).toList.head? = some c := by rw [hcs]; rfl
      rw [startsWithDigit, hhead] at hdigit
      exact ⟨c, rfl, isLower_of_isSlugChar (isSlugChar_of_head?_slug hhead) hdigit⟩
  case chars => exact fun c hc => isNameChar_of_mem_slug hc

/-- The key that a node asks for is a name, whatever its label is. -/
theorem isName_baseKey (place : Nat) (label : String) : IsName (baseKey place label) := by
  have hnode : ∀ s : String, (∀ c ∈ s.toList, isNameChar c = true) → IsName ("node_" ++ s) :=
    fun _ hs => isName_node_.append hs
  unfold baseKey
  extract_lets slugged filled prefixed
  -- The steps are followed one by one: a name is missing a letter in front at most.
  have hfilled : (∀ c ∈ filled.toList, isNameChar c = true) ∧
      (startsWithDigit filled = false → IsName filled) := by
    by_cases hempty : slugged = ""
    · have heq : filled = "node_" ++ (place + 1).repr := if_pos hempty
      have hname : IsName filled := heq ▸ hnode _ fun c hc => isNameChar_of_mem_repr hc
      exact ⟨hname.chars, fun _ => hname⟩
    · have heq : filled = slug label := if_neg hempty
      rw [heq]
      exact ⟨fun c hc => isNameChar_of_mem_slug hc, isName_slug hempty⟩
  have hprefixed : IsName prefixed := by
    cases hdigit : startsWithDigit filled with
    | true =>
      have heq : prefixed = "node_" ++ filled := if_pos hdigit
      exact heq ▸ hnode filled hfilled.1
    | false =>
      have heq : prefixed = filled := if_neg (by simp [hdigit])
      exact heq ▸ hfilled.2 hdigit
  split
  · exact hprefixed.append (List.all_eq_true.1 rfl)
  · exact hprefixed

/-- What holds of the wanted keys and of their variants holds of all keys. -/
theorem forall_mem_keysFrom {P : String → Prop} (hbase : ∀ place label, P (baseKey place label))
    (hnumbered : ∀ place label n, P (numbered "_" (baseKey place label) n)) {place : Nat}
    {used labels : List String} {key : String} (h : key ∈ keysFrom place used labels) : P key := by
  induction labels generalizing place used with
  | nil => cases h
  | cons label rest ih =>
    rcases List.mem_cons.1 h with rfl | h
    · rcases fresh_eq "_" (baseKey place label) used with heq | ⟨n, heq⟩
      · rw [heq]
        exact hbase place label
      · rw [heq]
        exact hnumbered place label n
    · exact ih h

theorem isName_of_mem_keysFrom {place : Nat} {used labels : List String} {key : String}
    (h : key ∈ keysFrom place used labels) : IsName key :=
  forall_mem_keysFrom isName_baseKey
    (fun place label => (isName_baseKey place label).numbered (List.all_eq_true.1 rfl)) h

/-- Every key is a name. -/
theorem isName_of_mem_assignKeys {nodes : List Node} {key : String}
    (h : key ∈ assignKeys nodes) : IsName key := isName_of_mem_keysFrom h

/-! ## Keys and labels -/

/-- A key is a fresh name made from the label of its node. -/
theorem exists_fresh_of_mem_zip_keysFrom {place : Nat} {used labels : List String}
    {key label : String} (h : (key, label) ∈ (keysFrom place used labels).zip labels) :
    ∃ place' used', key = fresh "_" (baseKey place' label) used' := by
  induction labels generalizing place used with
  | nil => simp [keysFrom] at h
  | cons first rest ih =>
    rw [keysFrom, List.zip_cons_cons] at h
    rcases List.mem_cons.1 h with heq | h
    · cases heq
      exact ⟨place, used, rfl⟩
    · exact ih h

/-- Without a label, the key is made from the place, behind the word for a node. -/
theorem exists_cons_baseKey_empty (place : Nat) : ∃ cs, (baseKey place "").toList = 'n' :: cs := by
  have hslug : slug "" = "" := rfl
  have hnode : ∃ cs, ("node_" ++ (place + 1).repr).toList = 'n' :: cs :=
    ⟨"ode_".toList ++ (place + 1).repr.toList, by rw [String.toList_append]; rfl⟩
  obtain ⟨cs, hcs⟩ := hnode
  have hdigit : startsWithDigit ("node_" ++ (place + 1).repr) = false := by
    rw [startsWithDigit, hcs]
    rfl
  rw [baseKey, hslug, if_pos rfl]
  simp only [hdigit, Bool.false_eq_true, if_false]
  split
  · exact ⟨cs ++ "_node".toList, by rw [String.toList_append, hcs]; rfl⟩
  · exact ⟨cs, hcs⟩

/-! ## The key table -/

@[simp] theorem map_fst_keyTable : (keyTable nodes).map Prod.fst = nodeIds nodes :=
  List.map_fst_zip (by simp [nodeIds])

@[simp] theorem map_snd_keyTable : (keyTable nodes).map Prod.snd = assignKeys nodes :=
  List.map_snd_zip (by simp [nodeIds])

/-- No other identifiers are in the table. -/
theorem lookup_keyTable_eq_none_iff {id : String} :
    (keyTable nodes).lookup id = none ↔ id ∉ nodeIds nodes := by
  rw [lookup_eq_none_iff_notMem, map_fst_keyTable]

theorem exists_lookup_keyTable_iff {id : String} :
    (∃ key, (keyTable nodes).lookup id = some key) ↔ id ∈ nodeIds nodes := by
  rw [← Option.ne_none_iff_exists', ne_eq, lookup_keyTable_eq_none_iff, Decidable.not_not]

/-- What is found in the table has been assigned. -/
theorem mem_assignKeys_of_lookup {id key : String} (h : (keyTable nodes).lookup id = some key) :
    key ∈ assignKeys nodes := by
  rw [← map_snd_keyTable]
  exact List.mem_map_of_mem (mem_of_lookup h)

end AgentFlow.Plan
