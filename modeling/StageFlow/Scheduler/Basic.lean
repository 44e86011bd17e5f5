import StageFlow.Scheduler.State

/-!
# The scheduler of a stage

A scheduler decides when steps are launched and which are skipped. It is told that the run starts, how
running steps ended, and that the run is cancelled; it answers with a `Transition`: what came to its
end, what is to be launched now, and whether the run is over.
-/

namespace StageFlow

/-- A run of a checked stage as the scheduler sees it. -/
structure Scheduler (g : StageGraph) where
  setting : Setting
  maxParallel : Nat
  states : States g.size
  started : Bool
  cancelled : Bool
  finished : Bool

/-- What one operation of a scheduler brings about. -/
structure Transition (n : Nat) where
  /-- The step that the executor reported on. -/
  completed : Option (Finished n) := none
  /-- What was decided about pending steps, in order. -/
  decisions : List (Decision n) := []
  /-- Steps ended by a cancellation. -/
  dropped : List (Finished n) := []
  /-- Steps to launch now. -/
  launched : List (Launch n) := []
  /-- The operation ended the run. -/
  ends : Bool := false

namespace Transition

variable {n : Nat}

/-- The steps that came to their end, in that order. -/
def finished (t : Transition n) : List (Finished n) :=
  t.completed.toList ++ t.decisions.filterMap Decision.finished? ++ t.dropped

end Transition

namespace Scheduler

variable {g : StageGraph}

/-- A scheduler before the start; at least one step may run at a time. -/
def new (g : StageGraph) (setting : Setting) (maxParallel : Nat) : Scheduler g where
  setting := setting
  maxParallel := max maxParallel 1
  states := Vector.replicate g.size .pending
  started := false
  cancelled := false
  finished := false

/-- The number of running steps. -/
def runningCount (s : Scheduler g) : Nat := s.states.runningCount

/-- The state of the step with a name. -/
def stateOf? (s : Scheduler g) (name : String) : Option (RunState g.size) :=
  (g.indexOf? name).map s.states.get

/-- Whether everything that a step requires is over. -/
def depsDone? (s : Scheduler g) (name : String) : Option Bool :=
  (g.indexOf? name).map fun i => (g.deps.get i).all fun d => (s.states.get d).isDone

/-- Notes the end of the run if every step is over, and reports it the first time. -/
def conclude (s : Scheduler g) (t : Transition g.size) : Scheduler g × Transition g.size :=
  ({ s with finished := s.finished || s.states.allDone },
    { t with ends := !s.finished && s.states.allDone })

/-- Decides about pending steps and fills free slots, unless the run is cancelled. -/
def advance (s : Scheduler g) (completed : Option (Finished g.size)) :
    Scheduler g × Transition g.size :=
  if s.cancelled then s.conclude { completed }
  else
    let (decisions, states) := s.states.promote g s.setting
    let free := s.maxParallel - states.runningCount
    let (launched, states) := states.launchReady (List.finRange g.size) free
    conclude { s with states } { completed, decisions, launched }

/-- Begins the run. Only the first call counts. -/
def start (s : Scheduler g) : Scheduler g × Transition g.size :=
  if s.started then (s, { }) else advance { s with started := true } none

/-- Takes note of how a running step ended. Reports about other steps are ignored. -/
def complete (s : Scheduler g) (name : String) (outcome : Outcome) :
    Scheduler g × Transition g.size :=
  match g.indexOf? name with
  | none => (s, { })
  | some i =>
    match s.states.get i with
    | .running =>
      let ending := outcome.ending (g.step i).onError
      advance { s with states := s.states.put i (.done ending) }
        (some ⟨i, name, ending, outcome.message⟩)
    | _ => (s, { })

/-- Ends every step that has not been launched; running steps stay as they are. Only the first call
counts. -/
def cancel (s : Scheduler g) : Scheduler g × Transition g.size :=
  if s.cancelled then (s, { })
  else
    let (dropped, states) := s.states.cancelWaiting g.name
    conclude { s with states, cancelled := true } { dropped }

end Scheduler

/-- What a step would do if its requirements succeeded, for a dry run. -/
structure Planned where
  name : String
  level : Nat
  requires : List String
  decision : Runnable ⊕ SkipReason ⊕ Unresolved

/-- What every step would do if all requirements succeeded. -/
def StageGraph.plan (g : StageGraph) (setting : Setting) : List Planned :=
  (List.finRange g.size).map fun i =>
    { name := g.name i
      level := g.levels.get i
      requires := (g.deps.get i).map g.name
      decision := match setting.resolve g.stage.name i (g.step i) with
        | .run l => .inl l.run
        | .skip r => .inr (.inl r)
        | .fail u => .inr (.inr u) }

end StageFlow
