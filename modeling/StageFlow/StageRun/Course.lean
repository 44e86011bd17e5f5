import StageFlow.StageRun.Basic

/-!
# The course of a run

A run in conversation with an executor. Reports of the executor wait in a queue, first in first out;
somebody may ask at any moment that the run be cancelled. `Course.next` says what is looked at next: a
request to cancel goes before everything that waits, and is passed on once; where nothing waits and
nobody can report any more, the run is lost.
-/

namespace StageFlow

/-- A run, and whether a request to cancel it has been passed on. -/
structure Course (g : StageGraph) where
  run : StageRun g
  cancelSeen : Bool := false

/-- What a run looks at next. -/
inductive Next where
  /-- Every step is over. -/
  | over
  /-- A signal, and what waits behind it. -/
  | signal (s : Signal) (rest : List Signal)
  /-- Steps are running, but nobody can report on them. -/
  | lost
  /-- Nothing yet. -/
  | idle
  deriving DecidableEq

namespace Course

variable {g : StageGraph}

/-- A run before its start. -/
def new (g : StageGraph) (setting : Setting) (maxParallel : Nat) : Course g :=
  ⟨.new g setting maxParallel, false⟩

/-- What is looked at next, given whether a cancellation has been asked for, what waits in the queue,
and whether nobody can report any more. -/
def next (c : Course g) (asked : Bool) (queue : List Signal) (closed : Bool) : Next :=
  if c.run.isFinished then .over
  else if asked && !c.cancelSeen then .signal .cancel queue
  else match queue with
    | s :: rest => .signal s rest
    | [] => if closed then .lost else .idle

/-- Begins the run. -/
def start (c : Course g) : Course g × List (Command g.size) :=
  let (run, a) := c.run.start
  ({ c with run }, a.commands)

/-- Takes a signal. -/
def take (c : Course g) (s : Signal) : Course g × List (Command g.size) :=
  let (run, a) := c.run.step s
  (⟨run, c.cancelSeen || s = .cancel⟩, a.commands)

end Course
end StageFlow
