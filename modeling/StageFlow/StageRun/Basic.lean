import StageFlow.Scheduler.Basic
import StageFlow.Event

/-!
# Runs of a stage

A run joins the scheduler with the results of the steps. It takes signals from outside and answers
with commands: launch steps, tell what happened, terminate what runs. Each operation tells of steps
that ended before steps that started, and of those before it launches them, so whoever listens hears
of a start before any output.
-/

namespace StageFlow

/-- What a run asks for. -/
inductive Command (n : Nat) where
  | launch (ls : List (Launch n))
  | tell (e : StepEvent)
  | terminate

/-- A run of a checked stage. -/
structure StageRun (g : StageGraph) where
  scheduler : Scheduler g
  results : Row StepResult g.size
  cancelled : Bool

/-- The answer to an operation. -/
structure Answer (n : Nat) where
  commands : List (Command n)
  /-- Some step is not over. -/
  goesOn : Bool

namespace StageRun

variable {g : StageGraph}

/-- A run before the start. -/
def new (g : StageGraph) (setting : Setting) (maxParallel : Nat) : StageRun g where
  scheduler := .new g setting maxParallel
  results := Row.ofFn fun i => { name := g.name i }
  cancelled := false

/-- Every step is over. -/
def isFinished (r : StageRun g) : Bool := r.scheduler.finished

/-- Writes the end of a step into its result. What ends in an error or a warning without having been
launched has its message as its error. -/
def finish (r : StepResult) (f : Finished g.size) : StepResult :=
  let status := f.ending.status
  let early := (status = .error || status = .warn) && r.error.isNone && r.command.isNone
  { r with
    status, message := f.message, skip := f.ending.skip?
    error := if early then some f.message else r.error }

/-- Writes the launch of a step into its result. -/
def launch (r : StepResult) (l : Launch g.size) : StepResult :=
  { r with status := .running, command := some l.run.text }

/-- Carries a transition of the scheduler over to the results. -/
def apply (r : StageRun g) (s : Scheduler g) (t : Transition g.size) :
    StageRun g × Answer g.size :=
  let ended := t.finished.foldl (fun rs f => rs.put f.index (finish (rs.get f.index) f)) r.results
  let results := t.launched.foldl (fun rs l => rs.put l.index (launch (rs.get l.index) l)) ended
  let commands :=
    t.finished.map (fun f => .tell (.finished f.name (ended.get f.index).summary)) ++
    t.launched.map (fun l => .tell (.started l.name)) ++
    if t.launched.isEmpty then [] else [.launch t.launched]
  ({ r with scheduler := s, results }, ⟨commands, !s.finished⟩)

/-- Begins the run. -/
def start (r : StageRun g) : StageRun g × Answer g.size :=
  let (s, t) := r.scheduler.start
  r.apply s t

/-- A line that a step wrote; only lines of running steps count. -/
def output (r : StageRun g) (step : String) (line : Line) : StageRun g × Answer g.size :=
  let ignored := (r, ⟨[], !r.isFinished⟩)
  match g.indexOf? step with
  | none => ignored
  | some i =>
    let result := r.results.get i
    if result.status = .running then
      ({ r with results := r.results.put i { result with output := result.output ++ [line] } },
        ⟨[.tell (.output step line)], !r.isFinished⟩)
    else ignored

/-- Notes what a running step reported about its execution. -/
def note (r : StepResult) (outcome : Outcome) (duration : Duration) : StepResult :=
  if r.status = .running then
    { r with duration, error := outcome.error?.orElse fun _ => r.error }
  else r

/-- The report that a step has ended. -/
def complete (r : StageRun g) (step : String) (outcome : Outcome) (duration : Duration) :
    StageRun g × Answer g.size :=
  let results := match g.indexOf? step with
    | none => r.results
    | some i => r.results.put i (note (r.results.get i) outcome duration)
  let (s, t) := r.scheduler.complete step outcome
  apply { r with results } s t

/-- The request to cancel the run. What still runs is to be terminated. -/
def cancel (r : StageRun g) : StageRun g × Answer g.size :=
  let (s, t) := r.scheduler.cancel
  let (r, a) := apply { r with cancelled := true } s t
  if 0 < s.runningCount then (r, { a with commands := a.commands ++ [.terminate] }) else (r, a)

/-- Takes a signal. -/
def step (r : StageRun g) : Signal → StageRun g × Answer g.size
  | .output step line => r.output step line
  | .completed step outcome duration => r.complete step outcome duration
  | .cancel => r.cancel

/-- The result of the stage so far. -/
def result (r : StageRun g) (duration : Duration) : StageResult :=
  ⟨g.stage.name, r.results.toList, duration, r.cancelled⟩

end StageRun
end StageFlow
