import AgentFlow.Proofs.Plan.Order
import AgentFlow.Proofs.Validation.ExportReady
import Mathlib.Data.Fintype.Card
import Mathlib.Data.List.Lex
import Mathlib.Data.Set.Finite.Basic

/-!
# Which nodes are emitted first

Nodes that no cycle leads to are emitted first, each behind the sources of its edges, and of all
such arrangements in the one whose places are the least (`Emits.le_of_sourcesFirst`). The others lie
on cycles or behind them, because each of them has a predecessor among them
(`isTangled_of_forall_exists`); they follow in their given order.
-/

namespace AgentFlow.Plan

variable {α : Type} {id : α → String} {edges : List Edge} {waiting free stuck : List α} {a b : α}

/-! ## The two parts of an emission -/

/-- The elements of `free` are emitted because they are ready, each the first of those that wait;
when only `stuck` waits, nothing is ready. -/
inductive Emits (id : α → String) : List Edge → List α → List α → List α → Prop where
  | stuck {edges : List Edge} {waiting : List α}
      (h : ∀ a ∈ waiting, isReady edges (id a) = false) : Emits id edges waiting [] waiting
  | emit {edges : List Edge} {waiting free stuck : List α} {a : α}
      (h : waiting.find? (fun a => isReady edges (id a)) = some a)
      (hrest : Emits id (edges.filter (·.source ≠ id a)) (without id (id a) waiting) free stuck) :
      Emits id edges waiting (a :: free) stuck

/-- An emission always comes to an end, and its order is that of what was ready and then that of the
rest. -/
theorem exists_emits (id : α → String) (edges : List Edge) (waiting : List α) :
    ∃ free stuck, emissionOrder id edges waiting = free ++ stuck ∧
      Emits id edges waiting free stuck := by
  induction edges, waiting using emission_induction id with
  | stuck edges waiting hfind =>
    refine ⟨[], waiting, emissionOrder_of_find?_eq_none hfind, .stuck ?_⟩
    simpa using hfind
  | emit edges waiting a hfind ih =>
    obtain ⟨free, stuck, heq, hrest⟩ := ih
    exact ⟨a :: free, stuck, by rw [emissionOrder_of_find?_eq_some hfind, heq]; rfl,
      .emit hfind hrest⟩

namespace Emits

/-- Only what waits is emitted. -/
theorem subset (h : Emits id edges waiting free stuck) : free ⊆ waiting := by
  induction h with
  | stuck => exact List.nil_subset _
  | emit hfind _ ih =>
    refine List.cons_subset.2 ⟨List.mem_of_find?_eq_some hfind, fun b hb => ?_⟩
    exact (List.mem_filter.1 (ih hb)).1

/-- No identifier is emitted twice. -/
theorem nodup_ids (h : Emits id edges waiting free stuck) : (free.map id).Nodup := by
  induction h with
  | stuck => exact List.nodup_nil
  | emit _ hrest ih =>
    refine List.nodup_cons.2 ⟨fun hmem => ?_, ih⟩
    -- What waits behind the first one has other identifiers.
    obtain ⟨b, hb, heq⟩ := List.mem_map.1 hmem
    exact of_decide_eq_true (List.mem_filter.1 (hrest.subset hb)).2 heq

/-- What is left keeps its order. -/
theorem stuck_eq (h : Emits id edges waiting free stuck) :
    stuck = waiting.filter fun b => id b ∉ free.map id := by
  induction h with
  | stuck => simp
  | emit _ _ ih =>
    rw [ih, without, List.filter_filter]
    refine List.filter_congr fun b _ => ?_
    simp [Bool.and_comm]

/-- Into everything that is left leads an edge that does not come from what has been emitted. -/
theorem exists_edge_of_mem_stuck (h : Emits id edges waiting free stuck) (hb : b ∈ stuck) :
    ∃ e ∈ edges, e.target = id b ∧ e.source ∉ free.map id := by
  induction h with
  | stuck hready =>
    have hedge := hready b hb
    simp only [isReady, List.all_eq_false, decide_eq_true_eq, not_not] at hedge
    obtain ⟨e, he, htarget⟩ := hedge
    exact ⟨e, he, htarget, by simp⟩
  | emit _ _ ih =>
    obtain ⟨e, he, htarget, hsource⟩ := ih hb
    obtain ⟨he, hne⟩ := List.mem_filter.1 he
    exact ⟨e, he, htarget, by simpa using ⟨of_decide_eq_true hne, by simpa using hsource⟩⟩

end Emits

/-! ## Sources first -/

/-- Every edge that leads to one of the identifiers comes from an earlier one. -/
def SourcesFirst (edges : List Edge) (ids : List String) : Prop :=
  ∀ e ∈ edges, e.target ∈ ids → ids.idxOf e.source < ids.idxOf e.target

instance (edges : List Edge) (ids : List String) : Decidable (SourcesFirst edges ids) :=
  inferInstanceAs (Decidable (∀ e ∈ edges, _ → _))

theorem sourcesFirst_nil (edges : List Edge) : SourcesFirst edges [] :=
  fun _ _ h => absurd h List.not_mem_nil

/-- The first identifier is ready, and its edges do not matter for the others. -/
theorem sourcesFirst_cons_iff {key : String} {ids : List String} (hkey : key ∉ ids) :
    SourcesFirst edges (key :: ids) ↔
      isReady edges key = true ∧ SourcesFirst (edges.filter (·.source ≠ key)) ids := by
  -- Behind the first one, all places are one further.
  have hbehind : ∀ {other : String}, other ≠ key →
      (key :: ids).idxOf other = ids.idxOf other + 1 := fun h => List.idxOf_cons_ne _ h.symm
  constructor
  · intro h
    have hready : ∀ e ∈ edges, e.target ≠ key := by
      rintro e he rfl
      have hlt := h e he List.mem_cons_self
      rw [List.idxOf_cons_self] at hlt
      exact Nat.not_lt_zero _ hlt
    refine ⟨by simpa [isReady] using hready, fun e he htarget => ?_⟩
    obtain ⟨he, hsource⟩ := List.mem_filter.1 he
    have hlt := h e he (List.mem_cons_of_mem _ htarget)
    rw [hbehind (of_decide_eq_true hsource), hbehind (hready e he)] at hlt
    exact Nat.lt_of_succ_lt_succ hlt
  · rintro ⟨hready, hrest⟩ e he htarget
    have hne : e.target ≠ key := of_decide_eq_true (List.all_eq_true.1 hready e he)
    rw [hbehind hne]
    by_cases hsource : e.source = key
    · rw [hsource, List.idxOf_cons_self]
      exact Nat.succ_pos _
    · rw [hbehind hsource]
      refine Nat.succ_lt_succ (hrest e (List.mem_filter.2 ⟨he, by simpa using hsource⟩) ?_)
      exact (List.mem_cons.1 htarget).resolve_left hne

/-- What is emitted has its sources before it. -/
theorem Emits.sourcesFirst (h : Emits id edges waiting free stuck) :
    SourcesFirst edges (free.map id) := by
  induction h with
  | stuck => exact sourcesFirst_nil _
  | @emit edges waiting free stuck a hfind hrest ih =>
    have hids := (Emits.emit hfind hrest).nodup_ids
    have hready := List.find?_some (p := fun a => isReady edges (id a)) hfind
    exact (sourcesFirst_cons_iff (List.nodup_cons.1 hids).1).2 ⟨hready, ih⟩

/-! ## The least arrangement -/

/-- In ascending order, the first element of a kind has the least place. -/
theorem eq_or_lt_of_find?_eq_some {p : α → Bool} {place : α → Nat} {as : List α}
    (hplace : as.Pairwise fun a b => place a < place b) (h : as.find? p = some a) (hb : b ∈ as)
    (hp : p b = true) : b = a ∨ place a < place b := by
  obtain ⟨-, before, after, rfl, hbefore⟩ := List.find?_eq_some_iff_append.1 h
  rcases List.mem_append.1 hb with hb | hb
  · have hnot := hbefore b hb
    rw [hp] at hnot
    cases hnot
  · rcases List.mem_cons.1 hb with rfl | hb
    · exact .inl rfl
    · exact .inr ((List.pairwise_cons.1 (List.pairwise_append.1 hplace).2.1).1 b hb)

/-- No arrangement of what has been emitted that has sources first is before the emission: the first
element of such an arrangement is ready, and the emission takes the earliest that is. -/
theorem Emits.le_of_sourcesFirst {place : α → Nat} (h : Emits id edges waiting free stuck)
    (hplace : waiting.Pairwise fun a b => place a < place b) {other : List α}
    (hperm : other.Perm free) (hfirst : SourcesFirst edges (other.map id)) :
    free.map place ≤ other.map place := by
  induction h generalizing other with
  | stuck =>
    obtain rfl := hperm.eq_nil
    exact le_refl _
  | @emit edges waiting free stuck a hfind hrest ih =>
    cases other with
    | nil => cases hperm.symm.eq_nil
    | cons b other =>
      have hids : ((b :: other).map id).Nodup :=
        (hperm.map id).nodup_iff.2 (Emits.emit hfind hrest).nodup_ids
      obtain ⟨hready, hother⟩ := (sourcesFirst_cons_iff (List.nodup_cons.1 hids).1).1 hfirst
      have hb : b ∈ waiting := (Emits.emit hfind hrest).subset (hperm.subset List.mem_cons_self)
      -- If it starts with the same element, the rest decides; otherwise it starts with a later one.
      rcases eq_or_lt_of_find?_eq_some hplace hfind hb hready with rfl | hlt
      · exact List.cons_le_cons (place b) (ih (hplace.filter _) hperm.cons_inv hother)
      · exact le_of_lt (List.Lex.rel hlt)

/-! ## Cycles -/

/-- A path of one or more edges leads from the identifier back to it. -/
def OnCycle (edges : List Edge) (id : String) : Prop := Relation.TransGen (Linked edges) id id

/-- The identifier lies on a cycle, or a cycle leads to it. -/
def IsTangled (edges : List Edge) (id : String) : Prop :=
  ∃ other, OnCycle edges other ∧ EdgePath edges other id

/-- What a tangled identifier leads to is tangled. -/
theorem IsTangled.of_linked {source target : String} (h : IsTangled edges source)
    (hlinked : Linked edges source target) : IsTangled edges target := by
  obtain ⟨other, hcycle, hpath⟩ := h
  exact ⟨other, hcycle, hpath.tail hlinked⟩

section

variable {ids : List String} {source target : String}

/-- Along a path, places go up. -/
theorem SourcesFirst.idxOf_lt (h : SourcesFirst edges ids)
    (hpath : Relation.TransGen (Linked edges) source target) (htarget : target ∈ ids) :
    ids.idxOf source < ids.idxOf target := by
  induction hpath with
  | single hlinked =>
    obtain ⟨e, he, rfl, rfl⟩ := hlinked
    exact h e he htarget
  | tail _ hlinked ih =>
    obtain ⟨e, he, rfl, rfl⟩ := hlinked
    have hlt := h e he htarget
    have hmem : e.source ∈ ids :=
      List.idxOf_lt_length_iff.1 (Nat.lt_of_lt_of_le hlt List.idxOf_le_length)
    exact Nat.lt_trans (ih hmem) hlt

/-- No cycle leads to an identifier whose sources all come before it. -/
theorem SourcesFirst.not_isTangled (h : SourcesFirst edges ids) (htarget : target ∈ ids) :
    ¬ IsTangled edges target := by
  rintro ⟨other, hcycle, hpath⟩
  -- The cycle is among the identifiers as well, so it would come before itself.
  have hmem : other ∈ ids := by
    rcases Relation.reflTransGen_iff_eq_or_transGen.1 hpath with rfl | hpath
    · exact htarget
    · exact List.idxOf_lt_length_iff.1
        (Nat.lt_of_lt_of_le (h.idxOf_lt hpath htarget) List.idxOf_le_length)
  exact Nat.lt_irrefl _ (h.idxOf_lt hcycle hmem)

/-- Edges whose targets can all be put behind their sources make no cycle. -/
theorem SourcesFirst.not_onCycle (h : SourcesFirst edges ids) (hall : ∀ e ∈ edges, e.target ∈ ids)
    (key : String) : ¬ OnCycle edges key := by
  intro hcycle
  obtain ⟨-, -, e, he, -, rfl⟩ := Relation.TransGen.tail'_iff.1 hcycle
  exact Nat.lt_irrefl _ (h.idxOf_lt hcycle (hall e he))

/-- If each of finitely many identifiers has a predecessor among them, none of them is free of
cycles: those that are would have no first one, for the predecessor of a free one is free. -/
theorem isTangled_of_forall_exists (h : ∀ target ∈ ids, ∃ source ∈ ids, Linked edges source target)
    (htarget : target ∈ ids) : IsTangled edges target := by
  by_contra hfree
  let Free := {key // key ∈ ids ∧ ¬ IsTangled edges key}
  let leads : Free → Free → Prop := fun x y => Relation.TransGen (Linked edges) x.1 y.1
  have : Finite Free := (ids.finite_toSet.subset fun _ hkey => hkey.1).to_subtype
  have : IsTrans Free leads := ⟨fun _ _ _ hxy hyz => hxy.trans hyz⟩
  have : Std.Irrefl leads := ⟨fun x hcycle => x.2.2 ⟨x.1, hcycle, .refl⟩⟩
  -- Paths order the free ones strictly, and on a finite type such an order is well-founded.
  have hnone : ∀ x : Free, False := by
    intro x
    induction x using (Finite.wellFounded_of_trans_of_irrefl leads).induction with
    | _ x ih =>
      obtain ⟨source, hsource, hlinked⟩ := h x.1 x.2.1
      have hbefore : ¬ IsTangled edges source := fun htangled => x.2.2 (htangled.of_linked hlinked)
      exact ih ⟨source, hsource, hbefore⟩ (.single hlinked)
  exact hnone ⟨target, htarget, hfree⟩

end

/-- What is left is tangled, because each of it has a predecessor that is left as well. -/
theorem Emits.isTangled_of_mem_stuck (h : Emits id edges waiting free stuck)
    (hends : ∀ e ∈ edges, e.source ∈ waiting.map id) (hb : b ∈ stuck) :
    IsTangled edges (id b) := by
  have hmem : id b ∈ stuck.map id := List.mem_map_of_mem hb
  refine isTangled_of_forall_exists (fun target htarget => ?_) hmem
  obtain ⟨c, hc, rfl⟩ := List.mem_map.1 htarget
  obtain ⟨e, he, htarget, hsource⟩ := h.exists_edge_of_mem_stuck hc
  obtain ⟨s, hs, hid⟩ := List.mem_map.1 (hends e he)
  -- The source waits and has not been emitted, so it is left too.
  refine ⟨e.source, ?_, e, he, rfl, htarget⟩
  rw [← hid, h.stuck_eq]
  exact List.mem_map_of_mem (List.mem_filter.2 ⟨hs, by simpa [hid] using hsource⟩)

/-! ## The emission order -/

/-- The place of an element among the given ones. -/
def placeIn (id : α → String) (given : List α) (a : α) : Nat := (given.map id).idxOf (id a)

/-- Sources come first, and of all arrangements of the same elements in which they do, this one has
the least places, compared from the left. -/
structure IsLeastArrangement (id : α → String) (edges : List Edge) (given arranged : List α) :
    Prop where
  sourcesFirst : SourcesFirst edges (arranged.map id)
  least : ∀ other : List α, other.Perm arranged → SourcesFirst edges (other.map id) →
    arranged.map (placeIn id given) ≤ other.map (placeIn id given)

/-- The given elements in emission order: first those that no cycle leads to, in their least
arrangement, and then the others as they are given. -/
structure IsEmission (id : α → String) (edges : List Edge) (given free tangled : List α) :
    Prop where
  perm : (free ++ tangled).Perm given
  mem_free_iff : ∀ a ∈ given, a ∈ free ↔ ¬ IsTangled edges (id a)
  tangled_eq : tangled = given.filter fun a => id a ∉ free.map id
  arranged : IsLeastArrangement id edges given free

/-- The given elements stand at their places in ascending order. -/
theorem pairwise_placeIn {given : List α} (hids : (given.map id).Nodup) :
    given.Pairwise fun a b => placeIn id given a < placeIn id given b := by
  have hplaces : (given.map id).Pairwise fun s t =>
      (given.map id).idxOf s < (given.map id).idxOf t := by
    rw [List.pairwise_iff_getElem]
    intro i j hi hj hij
    rwa [hids.idxOf_getElem, hids.idxOf_getElem]
  rwa [List.pairwise_map] at hplaces

theorem isEmission_of_emits {given : List α} (hids : (given.map id).Nodup)
    (hends : ∀ e ∈ edges, e.source ∈ given.map id) (h : Emits id edges given free stuck)
    (hperm : (free ++ stuck).Perm given) : IsEmission id edges given free stuck := by
  constructor
  case perm => exact hperm
  case tangled_eq => exact h.stuck_eq
  case arranged => exact ⟨h.sourcesFirst, fun _ => h.le_of_sourcesFirst (pairwise_placeIn hids)⟩
  case mem_free_iff =>
    intro a ha
    refine ⟨fun hfree => h.sourcesFirst.not_isTangled (List.mem_map_of_mem hfree), fun hfree => ?_⟩
    refine (List.mem_append.1 (hperm.mem_iff.2 ha)).resolve_right fun hstuck => ?_
    exact hfree (h.isTangled_of_mem_stuck hends hstuck)

/-- **The emission order** has the elements that no cycle leads to first, in their least arrangement
with sources first, and then the others as they are given; so without cycles it is the least
topological order. -/
theorem emissionOrder_isEmission {given : List α} (hids : (given.map id).Nodup)
    (hends : ∀ e ∈ edges, e.source ∈ given.map id ∧ e.target ∈ given.map id) :
    (∃ free tangled, emissionOrder id edges given = free ++ tangled ∧
      IsEmission id edges given free tangled) ∧
    ((∀ key, ¬ OnCycle edges key) →
      IsLeastArrangement id edges given (emissionOrder id edges given)) := by
  obtain ⟨free, tangled, heq, h⟩ := exists_emits id edges given
  have hperm : (free ++ tangled).Perm given := heq ▸ emissionOrder_perm hids
  have hemission := isEmission_of_emits hids (fun e he => (hends e he).1) h hperm
  refine ⟨⟨free, tangled, heq, hemission⟩, fun hacyclic => ?_⟩
  -- Where there is no cycle, nothing is tangled.
  have htangled : tangled = [] := List.eq_nil_iff_forall_not_mem.2 fun a ha => by
    obtain ⟨key, hcycle, -⟩ := h.isTangled_of_mem_stuck (fun e he => (hends e he).1) ha
    exact hacyclic key hcycle
  rw [heq, htangled, List.append_nil]
  exact hemission.arranged

/-- Three nodes that no cycle leads to, two that lie on one, and one behind them. -/
def knotNodes : List Node := ["c", "b", "a", "x", "y", "z"].map fun id => { id := id }

def forkEdges : List Edge :=
  [("a", "c"), ("a", "c"), ("b", "c")].map fun ends => { source := ends.1, target := ends.2 }

/-- The same edges, a cycle, and an edge behind it. -/
def knotEdges : List Edge := forkEdges ++
  [("x", "y"), ("y", "x"), ("y", "z")].map fun ends => { source := ends.1, target := ends.2 }

theorem emissionOrder_isEmission_knot :
    (knotNodes.map Node.id).Nodup ∧
    (∀ e ∈ knotEdges, e.source ∈ knotNodes.map Node.id ∧ e.target ∈ knotNodes.map Node.id) ∧
    (∃ free tangled, emissionOrder Node.id knotEdges knotNodes = free ++ tangled ∧
      IsEmission Node.id knotEdges knotNodes free tangled) ∧
    (∀ key, ¬ OnCycle forkEdges key) ∧
    IsLeastArrangement Node.id forkEdges knotNodes
      (emissionOrder Node.id forkEdges knotNodes) := by
  have hids : (knotNodes.map Node.id).Nodup := by decide
  have hends : ∀ e ∈ knotEdges,
      e.source ∈ knotNodes.map Node.id ∧ e.target ∈ knotNodes.map Node.id := by decide
  have hfork : ∀ e ∈ forkEdges,
      e.source ∈ knotNodes.map Node.id ∧ e.target ∈ knotNodes.map Node.id :=
    fun e he => hends e (List.mem_append_left _ he)
  have hsources : SourcesFirst forkEdges ["b", "a", "c"] := by decide
  have hacyclic := hsources.not_onCycle (by decide)
  exact ⟨hids, hends, (emissionOrder_isEmission hids hends).1, hacyclic,
    (emissionOrder_isEmission hids hfork).2 hacyclic⟩

example : (emissionOrder Node.id knotEdges knotNodes).map Node.id =
    ["b", "a", "c", "x", "y", "z"] := by decide +kernel

end AgentFlow.Plan
