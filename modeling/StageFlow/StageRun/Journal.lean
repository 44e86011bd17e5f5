import StageFlow.StageRun.Basic
import StageFlow.Scheduler.Journal

/-!
# The journal of a run

What a run logs about an operation, next to the journal of its scheduler.
-/

namespace StageFlow.StageRun

variable {g : StageGraph}

/-- The entry for the end of the run, if a transition ends it. -/
def conclusion (g : StageGraph) (t : Transition g.size) : List LogEntry :=
  if t.ends then [⟨.debug, "stage run complete", [shown "stage" g.stage.name]⟩] else []

/-- The journal of a start. -/
def startJournal (r : StageRun g) : List LogEntry :=
  r.scheduler.startJournal ++ conclusion g r.scheduler.start.2

/-- The journal of a signal. -/
def journal (r : StageRun g) : Signal → List LogEntry
  | .output step _ =>
    match g.indexOf? step with
    | none => [⟨.warn, "output from unknown step; dropping", [shown "step" step]⟩]
    | some i =>
      let status := (r.results.get i).status
      if status = .running then []
      else [⟨.warn, "output from step that is not running; dropping",
        [shown "step" step, shown "status" status.text]⟩]
  | .completed step outcome _ =>
    r.scheduler.completeJournal step outcome ++
      conclusion g (r.scheduler.complete step outcome).2
  | .cancel => r.scheduler.cancelJournal ++ conclusion g r.scheduler.cancel.2

end StageFlow.StageRun
