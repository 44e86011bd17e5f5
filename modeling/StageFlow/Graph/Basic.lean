import StageFlow.Graph.Toposort
import StageFlow.RunError
import StageFlow.Stage

/-!
# Stage graphs

A stage graph is a stage that has been checked: names are distinct, every action and every required
step exists, and the requirements have no cycle. It holds for every step the places of the steps that
it requires and its level, the length of the longest chain of requirements below it.

`StageGraph.build` reports the first of the following that applies: a repeated name; then, for the
first step that has one, an unknown action, or else its first unknown requirement; then a cycle.
-/

namespace StageFlow

/-- A checked stage with its requirements and levels by place. -/
structure StageGraph where
  stage : Stage
  deps : Row (List (Fin stage.size)) stage.size
  levels : Row Nat stage.size
  names_nodup : stage.names.Nodup
  deps_eq : ∀ i : Fin stage.size, deps.get i = stage.requirements i
  levels_eq : ∀ i : Fin stage.size, levels.get i = chainAbove ((deps.get i).map levels.get)

namespace StageGraph

/-- The first step whose name an earlier step has. -/
def firstRepeated? : List Step → List String → Option Step
  | [], _ => none
  | s :: ss, seen => if s.name ∈ seen then some s else firstRepeated? ss (s.name :: seen)

theorem nodup_of_firstRepeated? {ss : List Step} {seen : List String}
    (h : firstRepeated? ss seen = none) :
    (ss.map Step.name).Nodup ∧ ∀ s ∈ ss, s.name ∉ seen := by
  induction ss generalizing seen with
  | nil => simp
  | cons s ss ih =>
    simp only [firstRepeated?] at h
    split at h
    · cases h
    · next hs =>
      obtain ⟨hnd, hfresh⟩ := ih h
      refine ⟨?_, ?_⟩
      · simp only [List.map_cons, List.nodup_cons, List.mem_map, not_exists, not_and]
        exact ⟨fun t ht heq => hfresh t ht (by simp [heq]), hnd⟩
      · intro t ht
        rcases List.mem_cons.1 ht with rfl | ht
        · exact hs
        · exact fun hseen => hfresh t ht (List.mem_cons_of_mem _ hseen)

/-- What is wrong with the references of a step: an unknown action, or else the first unknown
requirement. -/
def stepFault? (stage : Stage) (actions : Actions) (s : Step) : Option RunError :=
  if !actions.contains s.action then some (.unknownAction stage.name s.name s.action)
  else (s.requires.find? fun r => (stage.indexOf? r).isNone).map
    (.unknownDependency stage.name s.name)

/-- Checks a stage against the actions that there are. -/
def build [Toposort] (stage : Stage) (actions : Actions) : Except RunError StageGraph :=
  match hrep : firstRepeated? stage.steps [] with
  | some s => .error (.config (.repeatedStep stage.name s.name))
  | none =>
    match stage.steps.findSome? (stepFault? stage actions) with
    | some e => .error e
    | none =>
      let deps := Row.ofFn stage.requirements
      match Cycle.find? deps.get with
      | some members => .error (.cycle stage.name (members.map fun i => (stage.step i).name))
      | none =>
        -- successors are requirements, so the order is followed from its end
        match horder : Toposort.sort deps.get with
        | .error i => .error (.config (.noLevels i))
        | .ok order => .ok
          { stage, deps
            levels := levelsAlong deps order.reverse
            names_nodup := (nodup_of_firstRepeated? hrep).1
            deps_eq := Row.get_ofFn stage.requirements
            levels_eq := levelsAlong_eq (Toposort.sorted horder).reverse }

/-- The number of steps. -/
abbrev size (g : StageGraph) : Nat := g.stage.size

/-- The step at a place. -/
def step (g : StageGraph) (i : Fin g.size) : Step := g.stage.step i

/-- The name of the step at a place. -/
def name (g : StageGraph) (i : Fin g.size) : String := (g.step i).name

/-- The place of the step with a name. -/
def indexOf? (g : StageGraph) (name : String) : Option (Fin g.size) := g.stage.indexOf? name

/-- The places of the steps that a step requires; none past the end. -/
def dependenciesOf (g : StageGraph) (i : Nat) : List Nat :=
  if h : i < g.size then (g.deps.get ⟨i, h⟩).map Fin.val else []

/-- The places of the steps that require a step; none past the end. -/
def dependentsOf (g : StageGraph) (d : Nat) : List Nat :=
  ((List.finRange g.size).filter fun i => (g.deps.get i).any fun j => j.val = d).map Fin.val

/-- The level of a step; zero past the end. -/
def levelOf (g : StageGraph) (i : Nat) : Nat := if h : i < g.size then g.levels.get ⟨i, h⟩ else 0

end StageGraph
end StageFlow
