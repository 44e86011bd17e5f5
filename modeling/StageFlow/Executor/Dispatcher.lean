import StageFlow.Log
import StageFlow.Table

/-!
# The dispatcher

The dispatcher starts a runner for every step that it is asked to run, unless a runner for a step of
that name is still at work. It remembers for each name the runner it started last, and looks after its
memory only when it is asked to run something. Told to terminate, it tells every runner that it
remembers and that is still at work to stop; a cancellation of the whole run stops every runner, now and
later.
-/

namespace StageFlow

/-- A runner that has been started. -/
structure Assignment where
  step : String
  finished : Bool := false
  /-- The dispatcher has told it to stop. -/
  told : Bool := false
  deriving DecidableEq

/-- The dispatcher: all runners in the order in which they were started, and which it remembers for each
name. -/
structure Dispatcher where
  assignments : List Assignment := []
  active : Table Nat := Table.empty
  /-- The whole run has been cancelled. -/
  cancelled : Bool := false

namespace Dispatcher

/-- A runner by its number. -/
def assignment? (d : Dispatcher) (n : Nat) : Option Assignment := d.assignments[n]?

/-- Whether a runner is at work. -/
def isLive (d : Dispatcher) (n : Nat) : Bool := (d.assignment? n).any (!·.finished)

/-- Whether a runner is to stop. -/
def isTold (d : Dispatcher) (n : Nat) : Bool := d.cancelled || (d.assignment? n).any (·.told)

/-- Changes a runner. -/
def modify (d : Dispatcher) (n : Nat) (f : Assignment → Assignment) : Dispatcher :=
  { d with assignments := d.assignments.modify n f }

/-- Forgets the runners that have finished. -/
def prune (d : Dispatcher) : Dispatcher :=
  { d with active := ⟨d.active.entries.filter fun e => d.isLive e.2⟩ }

/-- Takes a request to run a step. Says which runner is started, unless the request is ignored. -/
def start (d : Dispatcher) (step : String) : Dispatcher × Option Nat :=
  let d := d.prune
  if d.active.contains step then (d, none)
  else
    let n := d.assignments.length
    ({ d with assignments := d.assignments ++ [{ step }], active := d.active.insert step n }, some n)

/-- A runner has finished. -/
def finish (d : Dispatcher) (n : Nat) : Dispatcher := d.modify n fun a => { a with finished := true }

/-- The remembered runners that are at work. -/
def live (d : Dispatcher) : List (String × Nat) := d.active.entries.filter fun e => d.isLive e.2

/-- Tells every remembered runner that is at work to stop. -/
def terminate (d : Dispatcher) : Dispatcher :=
  d.live.foldl (fun d e => d.modify e.2 fun a => { a with told := true }) d

/-- Cancels the whole run. -/
def cancel (d : Dispatcher) : Dispatcher := { d with cancelled := true }

/-- The entry about the beginning. -/
def startedEntry : LogEntry := ⟨.info, "executor loop started", []⟩

/-- The entry about a request that is ignored. -/
def ignoredEntry (step : String) : LogEntry :=
  ⟨.warn, "step already running; ignoring duplicate scheduling request", [("step", .shown step)]⟩

/-- The entries about a termination. -/
def terminateJournal (d : Dispatcher) : List LogEntry :=
  d.live.map fun e => ⟨.info, "terminating running step", [("step", .shown e.1)]⟩

/-- The entry about a runner that has finished. -/
def finishedEntry (step : String) : LogEntry :=
  ⟨.debug, "step runner future finished", [("step", .shown step)]⟩

end Dispatcher
end StageFlow
