import AgentFlow.Plan.Basic
import AgentFlow.Proofs.Text.NameSearch

/-!
# Where names are given

Names are searched for in four places: for a default route key, for the key of a node, for a route
key that a routing table has already, and for a function of a program. Each time the search comes to
a stop, and the name is the least free one (`names_settle`).
-/

namespace AgentFlow

open Text Plan

/-- **Every search for a name comes to a stop and finds the least free one**, whatever the wanted
name and the used ones are; and this is how a name is given in each of the four places. -/
theorem names_settle :
    (∀ sep base used, Settles sep base used (fresh sep base used)) ∧
    (∀ branching label? (place : Nat) taken e rest, branching e = true →
      Routing.explicitKey e = "" →
      ∃ key, Settles "_" (Routing.defaultKey (label? e.target) e.id (place + 1))
          (Routing.keysAt taken e.source) key ∧
        Routing.route branching label? place taken (e :: rest) = Routing.keyedEdge e key ::
          Routing.route branching label? (place + 1) ((e.source, key) :: taken) rest) ∧
    (∀ place used label rest, ∃ key, Settles "_" (baseKey place label) used key ∧
      keysFrom place used (label :: rest) = key :: keysFrom (place + 1) (key :: used) rest) ∧
    (∀ (b : AgentFlow.Branch) key target,
      ∃ name, Settles "_" key (b.routes.map Route.key) name ∧
        (Branch.add b key target).routes = b.routes ++ [⟨name, target⟩]) ∧
    (∀ used base rest, ∃ name, Settles "" base used name ∧
      freshAll "" used (base :: rest) = name :: freshAll "" (name :: used) rest) := by
  refine ⟨settles_fresh, ?defaults, ?keys, ?routes, ?functions⟩
  case defaults =>
    intro branching label? place taken e rest he hkey
    exact ⟨_, settles_fresh .., by simp [Routing.route, he, hkey]⟩
  case keys =>
    intro place used label rest
    exact ⟨_, settles_fresh .., by rw [keysFrom]⟩
  case routes =>
    intro b key target
    exact ⟨_, settles_fresh .., by rw [Branch.add]⟩
  case functions =>
    intro used base rest
    exact ⟨_, settles_fresh .., by rw [freshAll]⟩

/-- The least number that is free can lie between two that are taken. An edge without a key to a
node whose slug is the key of another edge gets the second variant of that. -/
theorem names_settle_gap : Settles "_" "go" ["go", "go_2", "go_4"] "go_3" ∧
    Routing.explicitKey { source := "a", target := "b" } = "" ∧
    Settles "_" "stop" ["stop"] "stop_2" ∧
    Routing.route (fun _ => true) (fun _ => some "Stop") 0 [("a", "stop")]
        [{ source := "a", target := "b" }] =
      [{ source := "a", target := "b", kind := .conditional, routeKey := some "stop_2" }] := by
  obtain ⟨hfresh, hroute, -⟩ := names_settle
  have hgo : fresh "_" "go" ["go", "go_2", "go_4"] = "go_3" := by decide +kernel
  have hkey : Routing.explicitKey { source := "a", target := "b" } = "" := by decide +kernel
  obtain ⟨key, hsettles, heq⟩ := hroute (fun _ => true) (fun _ => some "Stop") 0 [("a", "stop")]
    { source := "a", target := "b" } [] rfl hkey
  have hused : Routing.keysAt [("a", "stop")] "a" = ["stop"] := by decide +kernel
  have hbase : Routing.defaultKey (some "Stop") none 1 = "stop" := by decide +kernel
  have hstop : Settles "_" "stop" ["stop"] key := by
    rw [← hused, ← hbase]
    exact hsettles
  -- The wanted key is taken, so the name has a number, and two is the first that is tried.
  obtain ⟨n, rfl, ⟨hn, -⟩, hleast⟩ := hstop.numbers (by decide)
  obtain rfl : n = 2 := Nat.le_antisymm (hleast ⟨Nat.le_refl 2, by decide +kernel⟩) hn
  exact ⟨hgo ▸ hfresh "_" "go" _, hkey, hstop, heq⟩

end AgentFlow
