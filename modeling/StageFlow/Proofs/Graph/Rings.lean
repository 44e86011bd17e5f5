import StageFlow.Proofs.Graph.Colours
import StageFlow.Proofs.Graph.Validity

/-!
# Cycles reported

A stage whose requirements have a cycle is turned down with one that is real (`StageGraph.build_ring`):
the names that are reported are those of distinct steps, each of which requires the next one, and the
last one the first. They are what a listener to the search by colours cuts out of its stack.
-/

namespace StageFlow

variable {stage : Stage} {actions : Actions} {name : String} {members : List String}

namespace Stage

/-- The names of distinct steps, each of which requires the next one, and the last one the first. -/
structure Ring (stage : Stage) (members : List String) : Prop where
  nodup : members.Nodup
  steps : members ⊆ stage.names
  closed : ∃ first rest, members = first :: rest ∧ (members ++ [first]).IsChain stage.RequiresName

/-- Whatever a ring names requires itself through the others, so there are no bystanders. -/
theorem Ring.transGen (h : stage.Ring members) (hname : name ∈ members) :
    Relation.TransGen stage.RequiresName name name := by
  obtain ⟨first, rest, rfl, hchain⟩ := h.closed
  have hwalk : (first :: (rest ++ [first])).IsChain (Relation.TransGen stage.RequiresName) :=
    hchain.imp fun _ _ => .single
  obtain ⟨hfirst, hrest⟩ := List.pairwise_cons.mp (List.isChain_iff_pairwise.mp hwalk)
  rcases List.mem_cons.mp hname with rfl | hname
  · exact hfirst name (by simp)
  · have hback := (List.pairwise_append.mp hrest).2.2 name hname first List.mem_cons_self
    exact hback.trans (hfirst name (List.mem_append_left _ hname))

theorem ring_of_isCycle {places : List (Fin stage.size)} (hnodup : stage.names.Nodup)
    (h : Cycle.IsCycle (Row.ofFn stage.requirements).get places) :
    stage.Ring (places.map fun i => (stage.step i).name) where
  nodup := h.nodup.map (name_injective hnodup)
  steps := by
    intro name hname
    obtain ⟨i, -, rfl⟩ := List.mem_map.mp hname
    exact List.mem_map_of_mem (List.get_mem stage.steps i)
  closed := by
    obtain ⟨u, rest, rfl, hchain⟩ := h.closed
    refine ⟨(stage.step u).name, rest.map fun i => (stage.step i).name, List.map_cons, ?_⟩
    rw [StageGraph.edge_eq_requires hnodup] at hchain
    have hnames : ((u :: rest ++ [u]).map fun i => (stage.step i).name).IsChain stage.RequiresName := by
      rw [List.isChain_map]
      exact hchain.imp fun i j hij => ⟨stage.step i, List.get_mem stage.steps i, rfl, hij⟩
    simpa using hnames

end Stage

namespace StageGraph

theorem stepFault?_ne_cycle {s : Step} : stepFault? stage actions s ≠ some (.cycle name members) := by
  intro h
  unfold stepFault? at h
  split at h
  next => cases h
  next =>
    obtain ⟨r, -, hr⟩ := Option.map_eq_some_iff.mp h
    cases hr

/-- A cycle is reported after names have been checked, and it is the one that the search returns. -/
theorem find?_of_build [Toposort] (h : build stage actions = .error (.cycle name members)) :
    stage.names.Nodup ∧ name = stage.name ∧
      ∃ places, Cycle.find? (Row.ofFn stage.requirements).get = some places ∧
        members = places.map fun i => (stage.step i).name := by
  unfold build at h
  split at h
  next => cases h
  next hrep =>
    split at h
    next e he =>
      cases h
      obtain ⟨s, -, hs⟩ := List.exists_of_findSome?_eq_some he
      exact (stepFault?_ne_cycle hs).elim
    next =>
      dsimp only at h
      split at h
      next places hplaces =>
        cases h
        exact ⟨firstRepeated?_eq_none_iff.mp hrep, rfl, places, hplaces, rfl⟩
      next =>
        split at h
        next => cases h
        next => cases h

/-- **A reported cycle is a real cycle.** Its members are distinct steps of the stage, each of which
requires the next one, and the last one the first; so each of them requires itself through the others.
They are what is on the stack of the search by colours from the place that an edge leads back to, which
is there whatever has been visited before. -/
theorem build_ring [Toposort] (h : build stage actions = .error (.cycle name members)) :
    name = stage.name ∧ stage.Ring members ∧
    (∀ m ∈ members, Relation.TransGen stage.RequiresName m m) ∧
    ∀ default, (Cycle.listen default [] (Cycle.trace (Row.ofFn stage.requirements).get)).map
      (·.map fun i => (stage.step i).name) = some members := by
  obtain ⟨hnodup, hname, places, hplaces, rfl⟩ := find?_of_build h
  have hring := Stage.ring_of_isCycle hnodup (Cycle.find?_isCycle hplaces)
  refine ⟨hname, hring, fun m hm => hring.transGen hm, fun default => ?_⟩
  rw [Cycle.listen_trace, hplaces, Option.map_some]

/-- One step needs nothing, and one that nobody needs leads into a cycle of three. -/
def looped : Stage where
  name := "looped"
  steps := [{ name := "lint", action := "make", requires := ["x"] }, { name := "root", action := "make" },
    { name := "x", action := "make", requires := ["root", "z"] },
    { name := "y", action := "make", requires := ["x"] },
    { name := "z", action := "make", requires := ["y"] }]

section
attribute [local instance] Cycle.toposort

theorem looped_ring :
    build looped tangledActions = .error (.cycle "looped" ["x", "z", "y"]) ∧
    looped.Ring ["x", "z", "y"] ∧ "lint" ∈ looped.names := by
  have hbuild : build looped tangledActions = .error (.cycle "looped" ["x", "z", "y"]) := rfl
  obtain ⟨-, hring, -⟩ := build_ring hbuild
  exact ⟨hbuild, hring, by decide⟩

end

end StageGraph
end StageFlow
