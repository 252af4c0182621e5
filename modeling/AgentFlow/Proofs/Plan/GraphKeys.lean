import AgentFlow.Proofs.Plan.Assembly
import AgentFlow.Proofs.Plan.ReservedWords

/-!
# Keys of graphs

The keys of the nodes of a graph are distinct names in the form of slugs, none of them reserved, and
each depends on the labels up to its node only (`hasKeys_of_nodup`): the first keys of a list of
labels are the keys of the first labels (`take_keysFrom`), so later nodes change no key.
-/

namespace AgentFlow.Plan

open Text
open scoped Computability

variable {nodes others : List Node} {n m : Node} {i : Nat} {key : String}

/-! ## The form of a key -/

/-- A word that starts with a small letter, and more words behind it:
`[a-z][a-z0-9]*(_[a-z0-9]+)*`. -/
def keyForm : Language Char := oneOf Char.isLower * (oneOf isSlugChar)∗ * moreWords

/-- A slug that is a name starts with a small letter, which the first word must start with. -/
theorem mem_keyForm (hslug : IsSlug key.toList) (hname : IsName key) : key.toList ∈ keyForm := by
  obtain ⟨word, hword, more, hmore, heq⟩ :=
    Language.mem_mul.1 hslug.mem_slugWords_mul_moreWords
  obtain ⟨first, ⟨c, -, rfl⟩, rest, hrest, rfl⟩ := Language.mem_mul.1 hword
  obtain ⟨d, hhead, hlower⟩ := hname.head
  rw [← heq] at hhead ⊢
  cases hhead
  exact Language.append_mem_mul (Language.append_mem_mul (singleton_mem_oneOf hlower) hrest) hmore

/-! ## What a key depends on -/

/-- The first keys are those of the first labels. -/
theorem take_keysFrom (count place : Nat) (used labels : List String) :
    (keysFrom place used labels).take count = keysFrom place used (labels.take count) := by
  induction labels generalizing count place used with
  | nil => simp [keysFrom]
  | cons label rest ih =>
    cases count with
    | zero => rfl
    | succ count => rw [keysFrom, List.take_succ_cons, List.take_succ_cons, keysFrom, ih]

/-- The keys are assigned place by place. -/
theorem getElem?_assignKeys (hids : (nodeIds nodes).Nodup) (hn : nodes[i]? = some n) :
    (assignKeys nodes)[i]? = some (keyOf nodes n.id) := by
  obtain ⟨hi, rfl⟩ := List.getElem?_eq_some_iff.1 hn
  have hkey : i < (assignKeys nodes).length := by rwa [length_assignKeys]
  have hentry : (nodes[i].id, (assignKeys nodes)[i]) ∈ keyTable nodes := by
    refine List.mem_of_getElem? (i := i) (List.getElem?_zip_eq_some.2 ⟨?_, ?_⟩)
    · rw [nodeIds, List.getElem?_map, hn]
      rfl
    · exact List.getElem?_eq_getElem hkey
  have hlookup := lookup_of_mem (by rwa [map_fst_keyTable]) hentry
  rw [keyOf, hlookup, List.getElem?_eq_getElem hkey, Option.getD_some]

/-- The assigned keys are those of the nodes, in order. -/
theorem map_keyOf (hids : (nodeIds nodes).Nodup) :
    nodes.map (fun n => keyOf nodes n.id) = assignKeys nodes := by
  refine List.ext_getElem? fun i => ?_
  rw [List.getElem?_map]
  cases hn : nodes[i]? with
  | none =>
    rw [List.getElem?_eq_none_iff, ← length_assignKeys, ← List.getElem?_eq_none_iff] at hn
    exact hn.symm
  | some n => exact (getElem?_assignKeys hids hn).symm

/-- The keys of two nodes at one place are the same if the labels up to there are. -/
theorem keyOf_congr (hids : (nodeIds nodes).Nodup) (hothers : (nodeIds others).Nodup)
    (hn : nodes[i]? = some n) (hm : others[i]? = some m)
    (hlabels : (nodes.take (i + 1)).map (·.label) = (others.take (i + 1)).map (·.label)) :
    keyOf others m.id = keyOf nodes n.id := by
  have htake : (assignKeys nodes).take (i + 1) = (assignKeys others).take (i + 1) := by
    rw [assignKeys, take_keysFrom, ← List.map_take, hlabels, List.map_take, ← take_keysFrom,
      assignKeys]
  -- The key at a place is among the first keys up to there.
  have hkey : (assignKeys nodes)[i]? = (assignKeys others)[i]? := by
    rw [← List.getElem?_take_of_lt (Nat.lt_succ_self i), htake,
      List.getElem?_take_of_lt (Nat.lt_succ_self i)]
  rw [getElem?_assignKeys hids hn, getElem?_assignKeys hothers hm, Option.some.injEq] at hkey
  exact hkey.symm

/-! ## All keys of a graph -/

/-- The keys of the nodes of a graph. Every node has one; they are distinct, in the form of keys,
and not reserved. The key of a node is settled by the labels up to it, so it is the same in every
list of nodes that starts with these labels, with more nodes behind them for example. -/
structure HasKeys (nodes : List Node) : Prop where
  found : ∀ n ∈ nodes, (keyTable nodes).lookup n.id = some (keyOf nodes n.id)
  distinct : (nodes.map fun n => keyOf nodes n.id).Nodup
  formed : ∀ n ∈ nodes, (keyOf nodes n.id).toList ∈ keyForm
  unreserved : ∀ n ∈ nodes, keyOf nodes n.id ∉ reservedWords
  settled : ∀ others i n m, (nodeIds others).Nodup → nodes[i]? = some n → others[i]? = some m →
    (nodes.take (i + 1)).map (·.label) = (others.take (i + 1)).map (·.label) →
      keyOf others m.id = keyOf nodes n.id
  stable : ∀ more, (nodeIds (nodes ++ more)).Nodup → ∀ n ∈ nodes,
    keyOf (nodes ++ more) n.id = keyOf nodes n.id

/-- **Graph keys** are distinct names that no language reserves, and what is added to a graph later
does not change them. -/
theorem hasKeys_of_nodup (hids : (nodeIds nodes).Nodup) : HasKeys nodes := by
  have hmem : ∀ n ∈ nodes, keyOf nodes n.id ∈ assignKeys nodes :=
    fun n hn => keyOf_mem_assignKeys (List.mem_map_of_mem hn)
  constructor
  case found => exact fun n hn => lookup_keyTable (List.mem_map_of_mem hn)
  case distinct =>
    rw [map_keyOf hids]
    exact nodup_assignKeys nodes
  case formed =>
    intro n hn
    exact mem_keyForm (isSlug_of_mem_assignKeys (hmem n hn)) (isName_of_mem_assignKeys (hmem n hn))
  case unreserved => exact fun n hn => notMem_reservedWords_of_mem (hmem n hn)
  case settled => exact fun others i n m hothers => keyOf_congr hids hothers
  case stable =>
    intro more hmore n hn
    obtain ⟨i, hi⟩ := List.mem_iff_getElem?.1 hn
    have hlt : i < nodes.length := (List.getElem?_eq_some_iff.1 hi).1
    refine keyOf_congr hids hmore hi (by rwa [List.getElem?_append_left hlt]) ?_
    rw [List.take_append_of_le_length hlt]

/-- Labels that a reserved word, a digit or nothing at all is left of. -/
def oddNodes : List Node :=
  ["Class!", "class node", "2nd try", "...", "été", "class node"].mapIdx
    fun i label => { id := i.repr, label := label }

theorem hasKeys_of_nodup_odd : (nodeIds oddNodes).Nodup ∧ HasKeys oddNodes := by
  have hids : (nodeIds oddNodes).Nodup := by decide +kernel
  exact ⟨hids, hasKeys_of_nodup hids⟩

example : assignKeys oddNodes =
    ["class_node", "class_node_2", "node_2nd_try", "node_4", "t", "class_node_3"] := by
  decide +kernel

end AgentFlow.Plan
