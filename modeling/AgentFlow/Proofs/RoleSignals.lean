import AgentFlow.RoleSignals
import AgentFlow.Proofs.Graph.Basic
import Mathlib.Data.List.Sublists

/-!
# What inference does to roles

Inference leaves a node's roles in the canonical order, without repetitions, and with every role
that the graph shows (`signalledRoles_subset`). As the signals of a node do not depend on its roles,
inferring twice is inferring once (`inferRoles_inferRoles`).
-/

namespace AgentFlow

/-! ## Canonical lists of roles -/

namespace Role

theorem canonical_sublist (roles : List Role) : (canonical roles).Sublist order :=
  List.filter_sublist

/-- The canonical list depends only on which roles there are. -/
theorem canonical_congr {roles roles' : List Role} (h : ∀ role, role ∈ roles ↔ role ∈ roles') :
    canonical roles = canonical roles' :=
  List.filter_congr fun role _ => by simp [h role]

@[simp] theorem canonical_canonical (roles : List Role) :
    canonical (canonical roles) = canonical roles :=
  canonical_congr fun _ => mem_canonical

/-- The canonical lists of roles are those in the canonical order, without repetitions. -/
theorem canonical_eq_self_iff {roles : List Role} :
    canonical roles = roles ↔ roles.Sublist order := by
  -- There are four roles, so sixteen lists in order to try.
  have hall : ∀ roles ∈ order.sublists, canonical roles = roles := by decide
  constructor
  · intro h
    rw [← h]
    exact canonical_sublist roles
  · exact fun h => hall roles (List.mem_sublists.2 h)

theorem nodup_of_sublist_order {roles : List Role} (h : roles.Sublist order) : roles.Nodup :=
  h.nodup (by decide)

theorem nodup_canonical (roles : List Role) : (canonical roles).Nodup :=
  nodup_of_sublist_order (canonical_sublist roles)

end Role

/-! ## One node -/

namespace Node

variable (n : Node) (fanOut : Nat)

/-! ### What inference leaves alone

Inference writes the roles and nothing else, and the signals that it goes by do not look at the
roles. -/

@[simp] theorem inferRoles_id : (n.inferRoles fanOut).id = n.id := rfl

@[simp] theorem inferRoles_label : (n.inferRoles fanOut).label = n.label := rfl

@[simp] theorem inferRoles_tools : (n.inferRoles fanOut).tools = n.tools := rfl

@[simp] theorem inferRoles_roles :
    (n.inferRoles fanOut).roles = Role.canonical (n.roles ++ n.signalledRoles fanOut) := rfl

/-- The signals of a node are the same before and after inference. -/
@[simp] theorem signalledRoles_inferRoles (fanOut' : Nat) :
    (n.inferRoles fanOut).signalledRoles fanOut' = n.signalledRoles fanOut' := by
  have hsignals : (n.inferRoles fanOut).signals fanOut' = n.signals fanOut' := by
    funext role
    cases role <;> rfl
  rw [signalledRoles, hsignals, signalledRoles]

/-! ### What inference adds -/

/-- Every node is an agent. -/
theorem agent_mem_signalledRoles : Role.agent ∈ n.signalledRoles fanOut :=
  List.mem_filter.2 ⟨by simp, rfl⟩

/-- After inference a node has every role that the graph shows of it. -/
theorem signalledRoles_subset : n.signalledRoles fanOut ⊆ (n.inferRoles fanOut).roles := by
  intro role h
  simp [h]

theorem agent_mem_inferRoles : Role.agent ∈ (n.inferRoles fanOut).roles :=
  n.signalledRoles_subset fanOut (n.agent_mem_signalledRoles fanOut)

/-- Fewer outgoing edges show no other roles. -/
theorem signalledRoles_mono {fanOut' : Nat} (h : fanOut' ≤ fanOut) :
    n.signalledRoles fanOut' ⊆ n.signalledRoles fanOut := by
  intro role hrole
  rw [signalledRoles, List.mem_filter] at hrole ⊢
  refine ⟨hrole.1, ?_⟩
  -- Only the sign of a router counts edges.
  cases role with
  | router =>
    have hmany : 1 < fanOut' := by simpa [signals] using hrole.2
    simpa [signals] using Nat.lt_of_lt_of_le hmany h
  | _ => exact hrole.2

/-- What fewer edges showed before, more edges show again. -/
theorem inferRoles_inferRoles_of_le {fanOut' : Nat} (h : fanOut ≤ fanOut') :
    (n.inferRoles fanOut).inferRoles fanOut' = n.inferRoles fanOut' := by
  have hroles : ((n.inferRoles fanOut).inferRoles fanOut').roles =
      (n.inferRoles fanOut').roles := by
    -- The signals do not look at the roles, so both lists have the same members.
    rw [inferRoles_roles, signalledRoles_inferRoles, inferRoles_roles, inferRoles_roles]
    refine Role.canonical_congr fun role => ?_
    have hmono := @signalledRoles_mono n fanOut' fanOut h role
    simp only [List.mem_append, Role.mem_canonical]
    tauto
  calc (n.inferRoles fanOut).inferRoles fanOut'
      = { n with roles := ((n.inferRoles fanOut).inferRoles fanOut').roles } := rfl
    _ = { n with roles := (n.inferRoles fanOut').roles } := by rw [hroles]
    _ = n.inferRoles fanOut' := rfl

/-- Inferring the roles of a node twice is inferring them once. -/
theorem inferRoles_inferRoles : (n.inferRoles fanOut).inferRoles fanOut = n.inferRoles fanOut :=
  n.inferRoles_inferRoles_of_le fanOut (Nat.le_refl fanOut)

/-- Inference leaves a node alone exactly if its roles are canonical and no signal is missing. -/
theorem inferRoles_eq_self_iff : n.inferRoles fanOut = n ↔
    Role.canonical n.roles = n.roles ∧ n.signalledRoles fanOut ⊆ n.roles := by
  constructor
  · intro h
    have hsub : n.signalledRoles fanOut ⊆ n.roles := by
      rw [← congrArg roles h]
      exact n.signalledRoles_subset fanOut
    refine ⟨?_, hsub⟩
    calc Role.canonical n.roles
        = Role.canonical (n.roles ++ n.signalledRoles fanOut) :=
          Role.canonical_congr fun role => by simpa using @hsub role
      _ = n.roles := congrArg roles h
  · rintro ⟨hcanonical, hsub⟩
    have hroles : Role.canonical (n.roles ++ n.signalledRoles fanOut) = n.roles := by
      rw [← hcanonical]
      exact Role.canonical_congr fun role => by simpa using @hsub role
    rw [inferRoles, hroles]

/-- Another number of outgoing edges can only show that the node is a router. -/
theorem mem_signalledRoles {fanOut' : Nat} {role : Role} (h : role ∈ n.signalledRoles fanOut') :
    role ∈ n.signalledRoles fanOut ∨ role = .router := by
  cases role with
  | router => exact Or.inr rfl
  | _ => exact Or.inl (List.mem_filter.2 ⟨by simp, (List.mem_filter.1 h).2⟩)

variable {n fanOut}

/-! ### Nodes that inference leaves alone -/

/-- A node that inference leaves alone is left alone with fewer edges too. -/
theorem inferRoles_eq_self_of_le (h : n.inferRoles fanOut = n) {fanOut' : Nat}
    (hle : fanOut' ≤ fanOut) : n.inferRoles fanOut' = n := by
  rw [inferRoles_eq_self_iff] at h ⊢
  exact ⟨h.1, fun _ hrole => h.2 (n.signalledRoles_mono fanOut hle hrole)⟩

/-- A node that inference leaves alone gains the role of a router where it gets several outgoing
edges, and no other. -/
theorem inferRoles_of_many (h : n.inferRoles fanOut = n) {fanOut' : Nat} (hmany : 1 < fanOut') :
    n.inferRoles fanOut' = { n with roles := Role.canonical (.router :: n.roles) } := by
  have hsub := ((n.inferRoles_eq_self_iff fanOut).1 h).2
  have hrouter : Role.router ∈ n.signalledRoles fanOut' :=
    List.mem_filter.2 ⟨by simp, decide_eq_true hmany⟩
  rw [inferRoles]
  congr 1
  refine Role.canonical_congr fun role => ?_
  rw [List.mem_append, List.mem_cons]
  constructor
  · rintro (hrole | hrole)
    · exact Or.inr hrole
    · exact (n.mem_signalledRoles fanOut hrole).symm.imp_right (@hsub role)
  · rintro (rfl | hrole)
    · exact Or.inr hrouter
    · exact Or.inl hrole

/-- Up to one outgoing edge, their number shows nothing. -/
theorem inferRoles_of_few (h : n.inferRoles fanOut = n) {fanOut' : Nat} (hfew : fanOut' ≤ 1) :
    n.inferRoles fanOut' = n := by
  obtain ⟨hcanonical, hsub⟩ := (n.inferRoles_eq_self_iff fanOut).1 h
  refine (n.inferRoles_eq_self_iff fanOut').2 ⟨hcanonical, fun role hrole => ?_⟩
  refine (n.mem_signalledRoles fanOut hrole).elim (@hsub role) ?_
  rintro rfl
  have hmany : 1 < fanOut' := of_decide_eq_true (List.mem_filter.1 hrole).2
  omega

/-- A node that inference leaves alone gains no role but that of a router where the number of its
outgoing edges changes. -/
theorem inferRoles_eq_or_gains (h : n.inferRoles fanOut = n) (fanOut' : Nat) :
    n.inferRoles fanOut' = n ∨
      n.inferRoles fanOut' = { n with roles := Role.canonical (.router :: n.roles) } :=
  (Nat.lt_or_ge 1 fanOut').elim (fun hmany => Or.inr (inferRoles_of_many h hmany))
    fun hfew => Or.inl (inferRoles_of_few h hfew)

/-- One more outgoing edge shows something only where it is the second. -/
theorem inferRoles_succ (h : n.inferRoles fanOut = n) : n.inferRoles (fanOut + 1) =
    if fanOut = 1 then { n with roles := Role.canonical (.router :: n.roles) } else n := by
  split
  · next hone => exact inferRoles_of_many h (by omega)
  · next hne =>
    rcases Nat.lt_or_ge 1 fanOut with hmany | hfew
    · -- A node that had several is a router already.
      rw [inferRoles_of_many h (Nat.lt_succ_of_lt hmany), ← inferRoles_of_many h hmany, h]
    · exact inferRoles_of_few h (by omega)

end Node

/-! ## All nodes -/

variable {nodes : List Node} {edges : List Edge}

@[simp] theorem nodeIds_inferRoles : nodeIds (inferRoles nodes edges) = nodeIds nodes := by
  rw [nodeIds, inferRoles, List.map_map]
  rfl

/-- The nodes after inference are the given ones, each with what its out-degree shows. -/
theorem mem_inferRoles {m : Node} :
    m ∈ inferRoles nodes edges ↔ ∃ n ∈ nodes, n.inferRoles (outDegree edges n.id) = m :=
  List.mem_map

/-- Inference leaves alone what it has made. -/
theorem inferRoles_of_mem_inferRoles {m : Node} (hm : m ∈ inferRoles nodes edges) :
    m.inferRoles (outDegree edges m.id) = m := by
  obtain ⟨n, -, rfl⟩ := mem_inferRoles.1 hm
  exact n.inferRoles_inferRoles _

/-- Of nodes that inference leaves alone, fewer edges show nothing new. -/
theorem inferRoles_eq_self_of_le {edges' : List Edge}
    (h : ∀ n ∈ nodes, n.inferRoles (outDegree edges n.id) = n)
    (hle : ∀ id, outDegree edges' id ≤ outDegree edges id) : inferRoles nodes edges' = nodes := by
  have hfix : ∀ n ∈ nodes, n.inferRoles (outDegree edges' n.id) = n := fun n hn =>
    Node.inferRoles_eq_self_of_le (h n hn) (hle n.id)
  rw [inferRoles, List.map_congr_left hfix, List.map_id']

/-- Of roles that have been inferred already, more edges show what they show of the others. -/
theorem inferRoles_inferRoles_of_le {edges' : List Edge}
    (hle : ∀ id, outDegree edges id ≤ outDegree edges' id) :
    inferRoles (inferRoles nodes edges) edges' = inferRoles nodes edges' := by
  show (nodes.map fun n => n.inferRoles (outDegree edges n.id)).map
    (fun m => m.inferRoles (outDegree edges' m.id)) = _
  rw [List.map_map]
  exact List.map_congr_left fun n _ => n.inferRoles_inferRoles_of_le _ (hle n.id)

/-- Inferring the roles of all nodes twice is inferring them once. -/
theorem inferRoles_idem : inferRoles (inferRoles nodes edges) edges = inferRoles nodes edges :=
  inferRoles_inferRoles_of_le fun _ => Nat.le_refl _

end AgentFlow
