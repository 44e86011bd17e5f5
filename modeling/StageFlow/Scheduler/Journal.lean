import StageFlow.Scheduler.Basic
import StageFlow.Log

/-!
# The journal of a scheduler

What a scheduler logs about an operation, read off from its state before and the transition.
-/

namespace StageFlow

/-- A field with finished text. -/
def shown (key text : String) : String × LogValue := (key, .shown text)

/-- The name of a status as a constructor. -/
def Status.constructorName : Status → String
  | .pending => "Pending"
  | .running => "Running"
  | .ok => "Ok"
  | .warn => "Warn"
  | .error => "Error"
  | .skipped => "Skipped"
  | .terminated => "Terminated"

variable {n : Nat} {g : StageGraph}

/-- A state as a constructor with its argument. -/
def RunState.constructorText : RunState n → String
  | .pending => "Pending"
  | .ready _ => "Ready"
  | .running => "Running"
  | .done e => "Done(" ++ e.status.constructorName ++ ")"

/-- The entry for a step that came to its end. -/
def Finished.entry (f : Finished n) : LogEntry :=
  ⟨.debug, "step terminal", [shown "step" f.name, shown "status" f.ending.status.text]⟩

/-- The entries for a decision. -/
def Decision.entries (stage : String) : Decision n → List LogEntry
  | .ready l =>
    [⟨.debug, "requirements satisfied; step ready",
      [("stage", .str stage), shown "step" l.name, shown "runnable" l.run.text]⟩]
  | .blocked f =>
    [⟨.info, "requirement did not succeed; skipping step",
      [("stage", .str stage), shown "step" f.name, shown "reason" (reason f)]⟩, f.entry]
  | .inapplicable f =>
    [⟨.debug, "step not applicable; skipping",
      [("stage", .str stage), shown "step" f.name, shown "reason" (reason f)]⟩, f.entry]
  | .invalid f =>
    [⟨.warn, "step failed before launch",
      [("stage", .str stage), shown "step" f.name, shown "error" f.message]⟩, f.entry]
where
  reason (f : Finished n) : String := (f.ending.skip?.map SkipReason.text).getD ""

/-- The entry for a launched step. -/
def Launch.entry (l : Launch n) : LogEntry :=
  ⟨.info, "launching step", [shown "step" l.name, shown "runnable" l.run.text]⟩

/-- The entries for everything in a transition. -/
def Transition.entries (stage : String) (t : Transition n) : List LogEntry :=
  (t.completed.map Finished.entry).toList ++
  t.decisions.flatMap (Decision.entries stage) ++
  t.dropped.map Finished.entry ++
  t.launched.map Launch.entry ++
  if t.ends then [⟨.info, "scheduler: all steps terminal", [shown "stage" stage]⟩] else []

namespace Scheduler

/-- The journal of a start. -/
def startJournal (s : Scheduler g) : List LogEntry :=
  let stage := g.stage.name
  if s.started then
    [⟨.warn, "scheduler already started; ignoring", [shown "stage" stage]⟩]
  else
    ⟨.debug, "scheduler: starting stage run",
      [shown "stage" stage, shown "steps" g.size.repr, shown "max_parallel" s.maxParallel.repr]⟩ ::
      s.start.2.entries stage

/-- The entry for the ending of a step that ran. -/
def endingEntry (name message : String) : Ending → LogEntry
  | .error => ⟨.warn, "step failed; skipping dependents",
      [shown "step" name, shown "message" message]⟩
  | .warn => ⟨.info, "step finished with warning", [shown "step" name, shown "message" message]⟩
  | e => ⟨.debug, "step completed", [shown "step" name, shown "status" e.status.text]⟩

/-- The journal of a completion. -/
def completeJournal (s : Scheduler g) (name : String) (outcome : Outcome) : List LogEntry :=
  match s.stateOf? name with
  | none => [⟨.warn, "completion for unknown step; ignoring", [shown "step" name]⟩]
  | some .running =>
    let t := (s.complete name outcome).2
    (t.completed.map fun f => endingEntry name f.message f.ending).toList ++ t.entries g.stage.name
  | some st =>
    [⟨.warn, "completion for step that is not running; ignoring",
      [shown "step" name, shown "state" st.constructorText]⟩]

/-- The journal of a cancellation. -/
def cancelJournal (s : Scheduler g) : List LogEntry :=
  if s.cancelled then []
  else
    ⟨.info, "scheduler: cancellation requested",
      [shown "stage" g.stage.name, shown "running" s.runningCount.repr]⟩ ::
      s.cancel.2.entries g.stage.name

end Scheduler
end StageFlow
